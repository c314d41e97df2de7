import Mathlib.Data.List.Nodup
import FieldScript.Instance

/-!
# FieldScript.Proofs.FieldOrder

Instances as insertion-ordered maps.

What an instance replies is decided by what was set on it before, however its fields are kept:
it has the fields that were ever set, each once, in the order of their first assignments and
with the value of the last (`Instance.Holds`).  A request gets the reply that this history calls
for and leaves an instance that holds one request more (`Instance.Holds.reply`), and so does
every request of a sequence (`Instance.replies_by_history`).
-/

namespace FieldScript

/-! ## entries of an ordered map -/

namespace Bindings

variable {α : Type}

/-- A name that is bound leaves every entry of another name in its place, with its value. -/
theorem getElem?_place_iff {name other : String} (h : other ≠ name) (value v : α)
    (entries : List (String × α)) (n : Nat) :
    (place name value entries)[n]? = some (other, v) ↔ entries[n]? = some (other, v) := by
  induction entries generalizing n with
  | nil => cases n <;> simp [place, h.symm]
  | cons entry rest ih =>
      obtain ⟨key, old⟩ := entry
      by_cases hkey : key = name
      · subst hkey
        cases n <;> simp [place, h.symm]
      · cases n <;> simp [place, hkey, ih]

/-- Binding a name keeps names distinct. -/
theorem nodup_names_insert {b : Bindings α} (h : b.names.Nodup) (name : String) (value : α) :
    (b.insert name value).names.Nodup := by
  rw [names_insert]
  split
  · exact h
  · next hnew =>
      rw [← List.concat_eq_append]
      exact List.Nodup.concat hnew h

/-- Entries with distinct names are the names, each with the value that it is bound to. -/
theorem entries_eq_filterMap {b : Bindings α} (h : b.names.Nodup) :
    b.entries = b.names.filterMap fun name => (b.get? name).map (name, ·) := by
  obtain ⟨entries⟩ := b
  simp only [names, get?] at h ⊢
  induction entries with
  | nil => rfl
  | cons entry rest ih =>
      obtain ⟨key, value⟩ := entry
      obtain ⟨hkey, hrest⟩ := List.nodup_cons.mp h
      have hbelow : ∀ name ∈ rest.map (·.1),
          (find? name ((key, value) :: rest)).map (name, ·) = (find? name rest).map (name, ·) := by
        intro name hname
        have hne : ¬ key = name := fun heq => hkey (heq ▸ hname)
        rw [find?, if_neg hne]
      have hfirst : find? key ((key, value) :: rest) = some value := by simp [find?]
      rw [List.map_cons, List.filterMap_cons, hfirst, Option.map_some,
        List.filterMap_congr hbelow, ← ih hrest]

end Bindings

/-! ## what was set -/

namespace FieldRequest

/-- The field that a request sets, and its value. -/
def assignment? : FieldRequest → Option (String × Value)
  | .set field value => some (field, value)
  | .lookup _ | .has _ | .list => none

/-- What requests set, in order. -/
def assignments (requests : List FieldRequest) : List (String × Value) :=
  requests.filterMap assignment?

/-- The fields that are ever set, each where it is set first. -/
def fieldsSet (requests : List FieldRequest) : List String :=
  ((assignments requests).map (·.1)).eraseDups

/-- The value that a field is set to last. -/
def lastValue? (requests : List FieldRequest) (field : String) : Option Value :=
  (assignments requests).reverse.lookup field

/-- The fields that are ever set, in the order of their first assignments, each with the value
that it is set to last. -/
def lastValues (requests : List FieldRequest) : List (String × Value) :=
  (fieldsSet requests).filterMap fun field => (lastValue? requests field).map (field, ·)

/-- The reply that earlier requests call for. -/
def replyAfter (earlier : List FieldRequest) : FieldRequest → FieldReply
  | .set field _ => .previous (lastValue? earlier field)
  | .lookup field => .found (lastValue? earlier field)
  | .has field => .answer (decide (field ∈ fieldsSet earlier))
  | .list => .fields (lastValues earlier)

/-- A request adds what it sets to what was set. -/
theorem assignments_concat (earlier : List FieldRequest) (request : FieldRequest) :
    assignments (earlier ++ [request]) = assignments earlier ++ request.assignment?.toList := by
  rw [assignments, assignments, List.filterMap_append]
  cases h : request.assignment? <;> simp [h]

/-- A field that was set before keeps its place, and a new one comes after all others. -/
theorem fieldsSet_concat_set (earlier : List FieldRequest) (field : String) (value : Value) :
    fieldsSet (earlier ++ [.set field value]) =
      if field ∈ fieldsSet earlier then fieldsSet earlier else fieldsSet earlier ++ [field] := by
  have hknown :
      field ∈ fieldsSet earlier ↔ field ∈ (assignments earlier).map (·.1) := List.mem_eraseDups
  rw [fieldsSet, assignments_concat, List.map_append, List.eraseDups_append]
  by_cases h : field ∈ (assignments earlier).map (·.1)
  · rw [if_pos (hknown.mpr h)]
    simp [assignment?, List.removeAll, h, fieldsSet]
  · rw [if_neg (mt hknown.mp h)]
    simp [assignment?, List.removeAll, h, fieldsSet, List.eraseDups_cons]

/-- The value that is set last counts. -/
theorem lastValue?_concat_set (earlier : List FieldRequest) (field other : String)
    (value : Value) :
    lastValue? (earlier ++ [.set field value]) other =
      if other = field then some value else lastValue? earlier other := by
  have hlast : (assignments (earlier ++ [.set field value])).reverse =
      (field, value) :: (assignments earlier).reverse := by
    simp [assignments_concat, assignment?]
  rw [lastValue?, hlast, List.lookup_cons, lastValue?]
  by_cases h : other = field
  · simp [h]
  · rw [if_neg h, beq_false_of_ne h]

end FieldRequest

namespace Instance

/-! ## one request -/

/-- An instance holds what requests set: the fields that were ever set, in the order of their
first assignments and none of them twice, each with the value of the last. -/
structure Holds (i : Instance) (requests : List FieldRequest) : Prop where
  names : i.fields.names = FieldRequest.fieldsSet requests
  distinct : i.fields.names.Nodup
  lookup? : ∀ field, i.lookup? field = FieldRequest.lastValue? requests field

/-- A new instance holds no request. -/
theorem holds_nil (cls : ClassRef) : Holds ⟨cls, ∅⟩ [] where
  names := rfl
  distinct := List.nodup_nil
  lookup? _ := rfl

/-- Only what is set counts. -/
theorem Holds.of_assignments {i : Instance} {requests requests' : List FieldRequest}
    (h : i.Holds requests)
    (heq : FieldRequest.assignments requests' = FieldRequest.assignments requests) :
    i.Holds requests' where
  names := by rw [h.names, FieldRequest.fieldsSet, FieldRequest.fieldsSet, heq]
  distinct := h.distinct
  lookup? field := by rw [h.lookup?, FieldRequest.lastValue?, FieldRequest.lastValue?, heq]

/-- Setting a field adds it to what an instance holds. -/
theorem Holds.setField {i : Instance} {earlier : List FieldRequest} (h : i.Holds earlier)
    (field : String) (value : Value) :
    (i.setField field value).Holds (earlier ++ [.set field value]) where
  names := by
    rw [FieldRequest.fieldsSet_concat_set, ← h.names]
    exact i.fields.names_insert field value
  distinct := Bindings.nodup_names_insert h.distinct field value
  lookup? other := by rw [lookup?_setField, FieldRequest.lastValue?_concat_set, h.lookup?]

/-- The fields of an instance are those ever set, in order of their first assignments, with their
last values. -/
theorem Holds.entries {i : Instance} {requests : List FieldRequest} (h : i.Holds requests) :
    i.fields.entries = FieldRequest.lastValues requests := by
  have hlookup (field : String) :
      i.fields.get? field = FieldRequest.lastValue? requests field := h.lookup? field
  rw [Bindings.entries_eq_filterMap h.distinct, h.names, FieldRequest.lastValues]
  simp only [hlookup]

/-- An instance has the fields that were ever set on it. -/
theorem Holds.hasField_iff {i : Instance} {requests : List FieldRequest} (h : i.Holds requests)
    (field : String) : i.hasField field = true ↔ field ∈ FieldRequest.fieldsSet requests := by
  rw [← h.names]
  exact i.fields.contains_iff_mem_names field

/-- A request gets the reply that the earlier ones call for. -/
theorem Holds.reply {i : Instance} {earlier : List FieldRequest} (h : i.Holds earlier)
    (request : FieldRequest) :
    (i.reply request).1 = request.replyAfter earlier ∧
      (i.reply request).2.Holds (earlier ++ [request]) := by
  have hsame (hnone : request.assignment? = none) : i.Holds (earlier ++ [request]) :=
    h.of_assignments (by simp [FieldRequest.assignments_concat, hnone])
  cases request with
  | set field value =>
      exact ⟨congrArg FieldReply.previous (h.lookup? field), h.setField field value⟩
  | lookup field => exact ⟨congrArg FieldReply.found (h.lookup? field), hsame rfl⟩
  | has field =>
      refine ⟨congrArg FieldReply.answer ?_, hsame rfl⟩
      exact Bool.eq_iff_iff.mpr ((h.hasField_iff field).trans decide_eq_true_iff.symm)
  | list => exact ⟨congrArg FieldReply.fields h.entries, hsame rfl⟩

/-! ## sequences of requests -/

/-- A sequence of requests is held after those from before. -/
theorem Holds.afterRequests {i : Instance} {earlier : List FieldRequest} (h : i.Holds earlier)
    (requests : List FieldRequest) : (i.afterRequests requests).Holds (earlier ++ requests) := by
  induction requests generalizing i earlier with
  | nil => simpa [Instance.afterRequests] using h
  | cons request rest ih => simpa [Instance.afterRequests] using ih (h.reply request).2

/-- Requests that come later are replied to by what earlier ones leave. -/
theorem replies_append (i : Instance) (earlier later : List FieldRequest) :
    i.replies (earlier ++ later) =
      i.replies earlier ++ (i.afterRequests earlier).replies later := by
  induction earlier generalizing i with
  | nil => rfl
  | cons request rest ih => simp [replies, afterRequests, ih]

theorem length_replies (i : Instance) (requests : List FieldRequest) :
    (i.replies requests).length = requests.length := by
  induction requests generalizing i with
  | nil => rfl
  | cons request rest ih => simp [replies, ih]

/-- Requests made of a new instance, in any number and order.

At every point the instance holds what was set so far: its fields are listed in the order of
their first assignments, none of them twice, each with its last value; and the next request gets
the reply that this calls for.  A field is there exactly if looking it up finds a value, be it
null.  Setting a field tells what looking it up would have told just before, and leaves every
entry of another field in its place, with its value. -/
theorem replies_by_history (cls : ClassRef) (earlier later : List FieldRequest)
    (request : FieldRequest) :
    let new : Instance := ⟨cls, ∅⟩
    let i := new.afterRequests earlier
    i.Holds earlier ∧ i.fields.entries = FieldRequest.lastValues earlier ∧
      (new.replies (earlier ++ request :: later))[earlier.length]? =
        some (request.replyAfter earlier) ∧
      (∀ field, (i.reply (.has field)).1 = .answer true ↔
        ∃ value, (i.reply (.lookup field)).1 = .found (some value)) ∧
      ∀ field value,
        let set := i.reply (.set field value)
        (∀ previous, set.1 = .previous previous ↔
          (i.reply (.lookup field)).1 = .found previous) ∧
          ∀ other, other ≠ field → ∀ (n : Nat) (v : Value),
            set.2.fields.entries[n]? = some (other, v) ↔
              i.fields.entries[n]? = some (other, v) := by
  intro new i
  have hholds : i.Holds earlier := (holds_nil cls).afterRequests earlier
  refine ⟨hholds, hholds.entries, ?_, fun field => ?_, fun field value => ⟨fun previous => ?_, ?_⟩⟩
  · rw [replies_append, List.getElem?_append_right (Nat.le_of_eq (length_replies new earlier)),
      length_replies, Nat.sub_self]
    exact congrArg some (hholds.reply request).1
  · simp [reply, hasField, Option.isSome_iff_exists]
  · simp [reply]
  · intro other hne n v
    exact Bindings.getElem?_place_iff hne value v i.fields.entries n

/-- A field is set to null and another one to a number, and both are set again: the first keeps
its place, and what is told of it was null. -/
theorem replies_by_history_interleaved :
    let earlier : List FieldRequest :=
      [.set "a" .null, .has "a", .set "b" (.int 1), .lookup "c", .set "b" (.int 2)]
    let i := (Instance.mk ⟨0⟩ ∅).afterRequests earlier
    "b" ≠ "a" ∧ i.fields.entries = [("a", .null), ("b", .int 2)] ∧
      (i.reply (.has "a")).1 = .answer true ∧
      ((Instance.mk ⟨0⟩ ∅).replies (earlier ++ [.set "a" (.int 3), .list]))[5]? =
        some (.previous (some .null)) ∧
      (i.setField "a" (.int 3)).fields.entries[1]? = some ("b", .int 2) := by
  intro earlier i
  have hne : "b" ≠ "a" := by decide
  obtain ⟨-, hentries, hreply, hhas, hset⟩ :=
    replies_by_history ⟨0⟩ earlier [.list] (.set "a" (.int 3))
  have hlisted : i.fields.entries = [("a", .null), ("b", .int 2)] :=
    hentries.trans (by decide +kernel)
  have hnull : (i.reply (.lookup "a")).1 = .found (some .null) := by decide +kernel
  refine ⟨hne, hlisted, (hhas "a").mpr ⟨.null, hnull⟩, hreply.trans (by decide +kernel), ?_⟩
  exact ((hset "a" (.int 3)).2 "b" hne 1 (.int 2)).mpr (by rw [hlisted]; rfl)

end Instance

end FieldScript
