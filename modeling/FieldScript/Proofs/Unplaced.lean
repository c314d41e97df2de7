import FieldScript.Syntax.Unplaced
import FieldScript.Proofs.AlikeNatives
import FieldScript.Proofs.BlockExit

/-!
# FieldScript.Proofs.Unplaced

Ranges do not matter.

A program and the same program without its ranges (`Program.unplaced`) run in step, and
so do all programs that are stored: no decision, no text of a value and no message
depends on a range.  What is left of a world, an error or a value without its ranges
(`World.unplaced` and the like) is the same on both sides.
-/

namespace FieldScript

/-! ## without ranges -/

def Location.unplaced : Location → Location
  | .source _ => .source .synthetic
  | .internal producer => .internal producer

def Located.unplaced (v : Located) : Located := ⟨v.value, v.origin.unplaced⟩

def CallEntry.unplaced (e : CallEntry) : CallEntry := ⟨e.fn, e.site.unplaced⟩

def ClassInfo.unplaced (c : ClassInfo) : ClassInfo := ⟨c.name, .synthetic⟩

/-- The error without its ranges, and without the note that tells the range of a class. -/
def RuntimeError.unplaced (e : RuntimeError) : RuntimeError :=
  ⟨e.location.unplaced, e.cause, e.calls.map CallEntry.unplaced, e.infos.filter (·.kind ≠ .note)⟩

def Stop.unplaced : Stop → Stop
  | .error e => .error e.unplaced
  | .blockExit => .blockExit
  | .tooDeep => .tooDeep

def Scope.unplaced (s : Scope) : Scope := ⟨s.id, s.vars.map Located.unplaced⟩

def Frames.unplaced (f : Frames) : Frames :=
  ⟨f.library.map Located.unplaced, f.base.map Located.unplaced, f.blocks.map Scope.unplaced,
    f.calls.map CallEntry.unplaced⟩

def Context.unplaced (c : Context) : Context := { c with toFrames := c.toFrames.unplaced }

def Store.unplaced (s : Store) : Store := { s with classes := s.classes.map ClassInfo.unplaced }

def World.unplaced (w : World) : World := ⟨w.context.unplaced, w.store.unplaced⟩

/-! ## likeness up to ranges -/

/-- Nothing but ranges differs. -/
def Likeness.upToRanges (functions : Array Function) : Likeness :=
  { Likeness.strict Eq true .all functions with
    range := fun _ _ => True
    range_refl := fun _ => trivial }

/-- Bindings related through a function are the ones it maps to the same. -/
theorem Bindings.related_iff_map_eq {α β : Type} {f : α → β} {b b' : Bindings α} :
    b.Related (fun v v' => f v = f v') b' ↔ b.map f = b'.map f := by
  rw [Related, map, map, Bindings.mk.injEq, ← forall₂_iff_map_eq]
  simp only [Prod.mk.injEq]

/-- Optional values related through a function are the ones it maps to the same. -/
theorem rel_iff_map_eq {α β : Type} {f : α → β} {o o' : Option α} :
    Option.Rel (fun a b => f a = f b) o o' ↔ o.map f = o'.map f := by
  cases o <;> cases o' <;> simp

/-- Tables related through a function are the ones it maps to the same. -/
theorem tablesRelated_iff_map_eq {α β : Type} {f : α → β} {t t' : Array α} :
    TablesRelated (fun a b => f a = f b) t t' ↔ t.map f = t'.map f := by
  constructor
  · intro h
    refine Array.ext_getElem? fun i => ?_
    rw [Array.getElem?_map, Array.getElem?_map]
    exact rel_iff_map_eq.mp (h i)
  · intro h i
    have hi : (t.map f)[i]? = (t'.map f)[i]? := by rw [h]
    rw [Array.getElem?_map, Array.getElem?_map] at hi
    exact rel_iff_map_eq.mpr hi

section UpToRanges

variable {functions : Array Function}

/-- Locations are alike up to ranges if they are the same without them. -/
theorem Location.alike_iff {l l' : Location} :
    l.Alike (.upToRanges functions) l' ↔ l.unplaced = l'.unplaced := by
  constructor
  · intro h
    cases h <;> rfl
  · intro h
    cases l <;> cases l' <;> cases h
    · exact .source trivial
    · exact .internal _

theorem Located.alike_eq :
    Located.Alike (.upToRanges functions) = fun v v' => v.unplaced = v'.unplaced := by
  funext v v'
  rw [unplaced, unplaced, Located.mk.injEq, ← Location.alike_iff]
  exact propext ⟨fun h => ⟨h.value, h.origin⟩, fun h => ⟨h.1, h.2⟩⟩

theorem CallEntry.alike_eq :
    CallEntry.Alike (.upToRanges functions) = fun e e' => e.unplaced = e'.unplaced := by
  funext e e'
  rw [unplaced, unplaced, CallEntry.mk.injEq, ← Location.alike_iff]
  exact propext ⟨fun h => ⟨h.fn, h.site⟩, fun h => ⟨h.1, h.2⟩⟩

theorem ClassInfo.alike_eq :
    ClassInfo.Alike (.upToRanges functions) = fun c c' => c.unplaced = c'.unplaced := by
  funext c c'
  rw [unplaced, unplaced, ClassInfo.mk.injEq]
  exact propext ⟨fun h => ⟨h.name, rfl⟩, fun h => ⟨h.1, trivial⟩⟩

theorem Scope.alike_eq :
    Scope.Alike (.upToRanges functions) = fun s s' => s.unplaced = s'.unplaced := by
  funext s s'
  rw [unplaced, unplaced, Scope.mk.injEq, ← Bindings.related_iff_map_eq, ← Located.alike_eq]
  exact propext ⟨fun h => ⟨h.id, h.vars⟩, fun h => ⟨h.1, h.2⟩⟩

theorem Frames.alike_eq :
    Frames.Alike (.upToRanges functions) = fun f f' => f.unplaced = f'.unplaced := by
  funext f f'
  rw [unplaced, unplaced, Frames.mk.injEq, ← Bindings.related_iff_map_eq,
    ← Bindings.related_iff_map_eq, ← forall₂_iff_map_eq, ← forall₂_iff_map_eq, ← Located.alike_eq,
    ← Scope.alike_eq, ← CallEntry.alike_eq]
  exact propext ⟨fun h => ⟨h.library, h.base, h.blocks, h.calls rfl⟩,
    fun h => ⟨h.1, h.2.1, h.2.2.1, fun _ => h.2.2.2⟩⟩

/-- Contexts are alike up to ranges if they are the same without them. -/
theorem Context.alike_iff {c c' : Context} :
    c.Alike (.upToRanges functions) c' ↔ c.unplaced = c'.unplaced := by
  have hframes : c.toFrames.Alike (.upToRanges functions) c'.toFrames ↔
      c.toFrames.unplaced = c'.toFrames.unplaced :=
    Iff.of_eq (congrFun (congrFun Frames.alike_eq _) _)
  rw [unplaced, unplaced, Context.mk.injEq, ← hframes]
  exact ⟨fun h => ⟨h.frames, h.policy, h.counter⟩, fun h => ⟨h.1, h.2.1, h.2.2⟩⟩

/-- Instances have no ranges. -/
theorem tablesRelated_instances_iff {t t' : Array Instance} :
    TablesRelated (Instance.Alike (.upToRanges functions)) t t' ↔ t = t' := by
  constructor
  · refine TablesRelated.eq fun {i i'} h => ?_
    cases i
    cases i'
    exact (Instance.mk.injEq ..).mpr ⟨h.cls, h.fields.eq id⟩
  · rintro rfl
    exact .refl (Instance.Alike.refl _) t

/-- Stores with these functions are alike up to ranges if they are the same without them. -/
theorem Store.alike_iff {s s' : Store} (hs : s.functions = functions) :
    s.Alike (.upToRanges functions) s' ↔ s.unplaced = s'.unplaced := by
  have hinstances : TablesRelated (Instance.Alike (.upToRanges functions)) s.instances
      s'.instances ↔ s.instances = s'.instances := tablesRelated_instances_iff
  rw [unplaced, unplaced, Store.mk.injEq, ← tablesRelated_iff_map_eq, ← ClassInfo.alike_eq,
    ← hinstances]
  constructor
  · exact fun h => ⟨h.classes, h.instances, hs.trans h.functions'.symm, h.clockReads⟩
  · exact fun h => ⟨h.1, h.2.1, hs, h.2.2.1 ▸ hs, h.2.2.2⟩

/-- Worlds with these functions are alike up to ranges if they are the same without them. -/
theorem World.alike_iff {w w' : World} (hw : w.store.functions = functions) :
    w.Alike (.upToRanges functions) w' ↔ w.unplaced = w'.unplaced := by
  rw [unplaced, unplaced, World.mk.injEq, ← Context.alike_iff, ← Store.alike_iff hw]
  exact ⟨fun h => ⟨h.context, h.store⟩, fun h => ⟨h.1, h.2⟩⟩

/-! ### errors -/

/-- Without its note, a missing field is explained in the same way for every class. -/
theorem tips_missingFieldInfos {c c' : ClassInfo} :
    (missingFieldInfos c).filter (·.kind ≠ .note) =
      (missingFieldInfos c').filter (·.kind ≠ .note) := by
  unfold missingFieldInfos
  cases c.declaredAt.isSynthetic <;> cases c'.declaredAt.isSynthetic <;> rfl

/-- Errors alike up to ranges are the same without them, and without the notes on classes. -/
theorem RuntimeError.Alike.unplaced_eq {e e' : RuntimeError}
    (h : e.Alike (.upToRanges functions) e') : e.unplaced = e'.unplaced := by
  have hcalls := h.calls rfl
  rw [CallEntry.alike_eq, forall₂_iff_map_eq] at hcalls
  have hinfos : e.infos.filter (·.kind ≠ .note) = e'.infos.filter (·.kind ≠ .note) := by
    obtain heq | ⟨c, c', _, hc, hc'⟩ := h.infos
    · rw [heq]
    · rw [hc, hc', tips_missingFieldInfos]
  exact (RuntimeError.mk.injEq ..).mpr ⟨Location.alike_iff.mp h.location, h.cause, hcalls, hinfos⟩

theorem Stop.Alike.unplaced_eq {stop stop' : Stop} (h : stop.Alike (.upToRanges functions) stop') :
    stop.unplaced = stop'.unplaced := by
  cases h with
  | error he => exact congrArg Stop.error he.unplaced_eq
  | blockExit | tooDeep => rfl

end UpToRanges

/-! ## programs without ranges -/

section Programs

variable {L : Likeness}

theorem Name.alike_unplaced (hL : ∀ r, L.range r .synthetic) (n : Name) : n.Alike L n.unplaced where
  range := hL n.range
  text := rfl

mutual

/-- Where every range is like the synthetic one, an expression is like itself without ranges. -/
theorem Expr.alike_unplaced (hL : ∀ r, L.range r .synthetic) : (e : Expr) → e.Alike L e.unplaced
  | .literal r _ => .literal (hL r) (L.value_refl _)
  | .variable r name => .variable (hL r) (name.alike_unplaced hL)
  | .field r target name => .field (hL r) (target.alike_unplaced hL) (name.alike_unplaced hL)
  | .call r callee ar args =>
    .call (hL r) (callee.alike_unplaced hL) (hL ar) (Expr.alike_unplacedList hL args)
  | .not r inner => .not (hL r) (inner.alike_unplaced hL)
  | .eq r left right => .eq (hL r) (left.alike_unplaced hL) (right.alike_unplaced hL)

theorem Expr.alike_unplacedList (hL : ∀ r, L.range r .synthetic) :
    (es : List Expr) → Expr.AlikeList L es (Expr.unplacedList es)
  | [] => .nil
  | e :: rest => .cons (e.alike_unplaced hL) (Expr.alike_unplacedList hL rest)

end

mutual

/-- Instructions, blocks and lists of instructions are like themselves without ranges. -/
theorem Instr.alike_unplaced (hL : ∀ r, L.range r .synthetic) :
    (instr : Instr) → instr.Alike L instr.unplaced
  | .declare r name init => .declare (hL r) (name.alike_unplaced hL) (init.alike_unplaced hL)
  | .assign r name value => .assign (hL r) (name.alike_unplaced hL) (value.alike_unplaced hL)
  | .setField r target field value =>
    .setField (hL r) (target.alike_unplaced hL) (field.alike_unplaced hL) (value.alike_unplaced hL)
  | .classDecl r name => .classDecl (hL r) (name.alike_unplaced hL)
  | .ifThen r test body => .ifThen (hL r) (test.alike_unplaced hL) (body.alike_unplaced hL)
  | .ifElse r test body otherwise =>
    .ifElse (hL r) (test.alike_unplaced hL) (body.alike_unplaced hL) (otherwise.alike_unplaced hL)
  | .eval r expr => .eval (hL r) (expr.alike_unplaced hL)

theorem Block.alike_unplaced (hL : ∀ r, L.range r .synthetic) :
    (block : Block) → Instr.AlikeBlock L block block.unplaced
  | .mk r instrs => .mk (hL r) (Instr.alike_unplacedList hL instrs)

theorem Instr.alike_unplacedList (hL : ∀ r, L.range r .synthetic) :
    (instrs : List Instr) → Instr.AlikeList L instrs (Instr.unplacedList instrs)
  | [] => .nil
  | instr :: rest => .cons (instr.alike_unplaced hL) (Instr.alike_unplacedList hL rest)

end

/-- The stored programs without their ranges. -/
def Library.unplacedScripts (scripts : Library.Scripts) : Library.Scripts :=
  fun name => (scripts name).map Program.unplaced

theorem Library.alike_unplacedScripts (hL : ∀ r, L.range r .synthetic)
    (scripts : Library.Scripts) : Library.ScriptsAlike L scripts (unplacedScripts scripts) := by
  intro name
  rw [unplacedScripts]
  cases scripts name with
  | none => exact .none
  | some program => exact .some (Instr.alike_unplacedList hL program)

end Programs

/-! ## runs -/

/-- None of the functions that exist shows ranges. -/
def Store.HidesRanges (s : Store) : Prop :=
  ∀ f ∈ s.functions, f.behaviour ≠ .embedded "probe" ∧ f.behaviour ≠ .embedded "inspect"

instance (s : Store) : Decidable s.HidesRanges :=
  inferInstanceAs (Decidable (∀ f ∈ s.functions,
    f.behaviour ≠ .embedded "probe" ∧ f.behaviour ≠ .embedded "inspect"))

/-- What a program comes to without the ranges in it. -/
def Program.unplacedOutcome :
    Except Stop (Option Located) → Except Stop (Option Located)
  | .ok value => .ok (value.map Located.unplaced)
  | .error stop => .error stop.unplaced

/-- A program and the program without its ranges, with stored programs likewise, come to
the same up to ranges from worlds that are the same up to ranges: the same value, the
same error with calls of the same functions, or the same stop.  The worlds that they
leave are the same up to ranges, so they show all values alike, and so is the log. -/
theorem Host.run_unplaced (scripts : Library.Scripts) (clock : Nat → Reading) (depth : Nat)
    (program : Program) {w w' : World} (hw : w.unplaced = w'.unplaced)
    (hs : w.store.HidesRanges) :
    let placed := (Host.ofScripts scripts clock).run depth program
    let unplaced :=
      (Host.ofScripts (Library.unplacedScripts scripts) clock).run depth program.unplaced
    Program.unplacedOutcome (placed.result w).1 = Program.unplacedOutcome (unplaced.result w').1 ∧
      (placed.result w).2.unplaced = (unplaced.result w').2.unplaced ∧
      (∀ v, (placed.result w).2.store.text v = (unplaced.result w').2.store.text v) ∧
      logOf (placed.journal w) = logOf (unplaced.journal w') := by
  intro placed unplaced
  let L := Likeness.upToRanges w.store.functions
  have hranges (r : Range) : L.range r .synthetic := trivial
  have hhost : (Host.ofScripts scripts clock).Alike L
      (Host.ofScripts (Library.unplacedScripts scripts) clock) :=
    Host.alike_ofScripts (Library.alike_unplacedScripts hranges scripts) clock
      (fun f hf => (hs f hf).2) (.inr fun f hf => (hs f hf).1)
  have hcall := hhost.callersInStep (reportsInStep_malformed id) (.inl nofun)
    (Nat.le_refl depth) fun _ => rfl
  rw [Host.callReporting_malformed, Host.callReporting_malformed] at hcall
  have hstep : InStep L (Option.Rel (Located.Alike L)) placed unplaced :=
    Program.inStep_run hcall (Instr.alike_unplacedList hranges program)
  obtain ⟨hresult, hworld, hjournal⟩ :=
    hstep.result ((World.alike_iff rfl).mpr hw) (Extent.covers_all _)
  refine ⟨?_, (World.alike_iff hworld.store.functions).mp hworld, hworld.store.text_eq id,
    logOf_eq hjournal⟩
  generalize (placed.result w).1 = o at hresult
  generalize (unplaced.result w').1 = o' at hresult
  cases hresult with
  | ok hv =>
      rw [Located.alike_eq, rel_iff_map_eq] at hv
      exact congrArg Except.ok hv
  | error hs => exact congrArg Except.error hs.unplaced_eq

/-- Declares a class and reads a field that a new instance of it does not have. -/
def readsAbsentField : Program :=
  [.classDecl ⟨0, 7⟩ ⟨⟨6, 1⟩, "A"⟩,
    .eval ⟨8, 5⟩ <| .field ⟨8, 5⟩ (.call ⟨8, 3⟩ (.variable ⟨8, 1⟩ ⟨⟨8, 1⟩, "A"⟩) ⟨9, 2⟩ [])
      ⟨⟨12, 1⟩, "f"⟩]

/-- Runs a script. -/
def runsScript : Program :=
  [.eval ⟨0, 10⟩ <| .call ⟨0, 10⟩ (.variable ⟨0, 6⟩ ⟨⟨0, 6⟩, "script"⟩) ⟨6, 4⟩
    [.literal ⟨7, 2⟩ (.string "s")]]

/-- The error of a script is the same up to ranges, but it is not the same: one has the
note that tells where the class is declared. -/
theorem run_unplaced_readsAbsentField :
    let scripts : Library.Scripts := fun _ => some readsAbsentField
    let clock : Nat → Reading := fun _ => .beforeEpoch
    let w := worldWith [scriptFunction]
    let placed := (Host.ofScripts scripts clock).run 2 runsScript
    let unplaced :=
      (Host.ofScripts (Library.unplacedScripts scripts) clock).run 2 runsScript.unplaced
    Program.unplacedOutcome (placed.result w).1 = Program.unplacedOutcome (unplaced.result w).1 ∧
      (placed.result w).1 ≠ (unplaced.result w).1 ∧
      logOf (placed.journal w) = logOf (unplaced.journal w) := by
  intro scripts clock w placed unplaced
  have hs : w.store.HidesRanges := by decide +kernel
  obtain ⟨houtcome, _, _, hlog⟩ := Host.run_unplaced scripts clock 2 runsScript rfl hs
  exact ⟨houtcome, by decide +kernel, hlog⟩

end FieldScript
