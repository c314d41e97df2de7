import Mathlib.Data.List.Nodup
import FieldScript.Config

/-!
# FieldScript.Proofs.Strictness

Configurations are strict.

No line of a document gives a key that its table already has, whether the line is a header or a
pair (`Toml.Table.keepsDistinct_alter`), so a document has every key once.  What the entries
come to, one after the other, is then what the document says: the policy that its only setting
names, or the default if there are no entries (`Config.policyOfTable_eq_ok_iff`).  Any other
entry is enough for the document to be refused (`Config.read_strict`).
-/

namespace FieldScript

namespace Toml

/-! ## keys of a document -/

section Keys

variable {α : Type}

/-- The keys of entries by their texts, in order. -/
def keyTexts (entries : List (Key × α)) : List String := entries.map (·.1.text)

/-- A key is not found if it is none of the keys. -/
theorem lookup?_eq_none_iff (name : String) (entries : List (Key × α)) :
    lookup? name entries = none ↔ name ∉ keyTexts entries := by
  induction entries with
  | nil => simp [lookup?, keyTexts]
  | cons entry rest ih =>
      obtain ⟨key, value⟩ := entry
      rw [keyTexts] at ih ⊢
      by_cases h : key.text = name
      · simp [lookup?, h]
      · have hne : ¬ name = key.text := fun heq => h heq.symm
        simpa [lookup?, h, hne] using ih

/-- With distinct keys, every entry is found by its key. -/
theorem lookup?_of_mem {entries : List (Key × α)} (h : (keyTexts entries).Nodup)
    {entry : Key × α} (hmem : entry ∈ entries) :
    lookup? entry.1.text entries = some entry.2 := by
  induction entries with
  | nil => cases hmem
  | cons first rest ih =>
      obtain ⟨key, value⟩ := first
      obtain ⟨hkey, hrest⟩ := List.nodup_cons.mp h
      obtain rfl | hmem := List.mem_cons.mp hmem
      · simp [lookup?]
      · have hne : ¬ key.text = entry.1.text := fun heq =>
          hkey (List.mem_map.mpr ⟨entry, hmem, heq.symm⟩)
        rw [lookup?, if_neg hne, ih hrest hmem]

/-- Replacing a value keeps the keys. -/
theorem keyTexts_replace (name : String) (value : α) (entries : List (Key × α)) :
    keyTexts (replace name value entries) = keyTexts entries := by
  induction entries with
  | nil => rfl
  | cons entry rest ih =>
      obtain ⟨key, old⟩ := entry
      rw [keyTexts] at ih ⊢
      by_cases h : key.text = name
      · simp [replace, h, keyTexts]
      · simpa [replace, h, keyTexts] using ih

/-- Removing an entry takes its key away. -/
theorem keyTexts_remove (name : String) (entries : List (Key × α)) :
    keyTexts (remove name entries) = (keyTexts entries).filter (· ≠ name) := by
  rw [keyTexts, keyTexts, remove, List.filter_map]
  rfl

end Keys

namespace Table

/-- No key of the table is there twice. -/
def Distinct (t : Table) : Prop := (keyTexts t.entries).Nodup

/-- A new key keeps the keys distinct. -/
theorem Distinct.append {t : Table} (h : t.Distinct) {key : Key}
    (hnew : t.find? key.text = none) (item : Item) : (t.append key item).Distinct := by
  have hunbound : key.text ∉ keyTexts t.entries := (lookup?_eq_none_iff _ _).mp hnew
  show (keyTexts (t.entries ++ [(key, item)])).Nodup
  rw [keyTexts, List.map_append, List.map_singleton, ← List.concat_eq_append]
  exact List.Nodup.concat hunbound h

/-- Replacing a value keeps the keys distinct. -/
theorem Distinct.replace {t : Table} (h : t.Distinct) (name : String) (item : Item) :
    (t.withEntries (replace name item t.entries)).Distinct := by
  show (keyTexts (Toml.replace name item t.entries)).Nodup
  rw [keyTexts_replace]
  exact h

/-- Removing an entry keeps the keys distinct. -/
theorem Distinct.remove {t : Table} (h : t.Distinct) (name : String) :
    (t.withEntries (remove name t.entries)).Distinct := by
  show (keyTexts (Toml.remove name t.entries)).Nodup
  rw [keyTexts_remove]
  exact h.filter _

/-- A removed key is not found any more, even if it stood there twice. -/
theorem find?_remove (t : Table) (name : String) :
    (t.withEntries (Toml.remove name t.entries)).find? name = none := by
  refine (lookup?_eq_none_iff _ _).mpr ?_
  show name ∉ keyTexts (Toml.remove name t.entries)
  rw [keyTexts_remove, List.mem_filter]
  simp

/-! ## lines of a document -/

/-- Where the change of a table succeeds, keys that were distinct still are. -/
def KeepsDistinct (f : Table → Option Table) : Prop :=
  ∀ ⦃t t' : Table⦄, f t = some t' → t.Distinct → t'.Distinct

/-- Opening a table keeps keys distinct. -/
theorem keepsDistinct_openHeader (range : Range) (key : Key) :
    KeepsDistinct (openHeader range key) := by
  intro t t' h hd
  rw [openHeader] at h
  split at h
  · next hnew =>
      cases h
      exact hd.append hnew _
  · next inner _ =>
      split at h
      · cases h
        exact (hd.remove key.text).append (t.find?_remove key.text) _
      · cases h
  · cases h

/-- Opening an element of an array of tables keeps keys distinct. -/
theorem keepsDistinct_openElement (range : Range) (key : Key) :
    KeepsDistinct (openElement range key) := by
  intro t t' h hd
  rw [openElement] at h
  split at h
  · next hnew =>
      cases h
      exact hd.append hnew _
  · cases h
    exact hd.replace _ _
  · cases h

/-- Unless the path ends in the table itself, a change at its end shows there as an entry that is
new or replaced. -/
theorem keepsDistinct_alter {f : Table → Option Table} (hf : KeepsDistinct f) (dotted : Bool)
    (path : List Key) : KeepsDistinct (alter dotted f path) := by
  intro t t' h hd
  cases path with
  | nil => exact hf h hd
  | cons key path =>
      rw [alter] at h
      split at h
      · next hnew =>
          obtain ⟨made, -, heq⟩ := Option.bind_eq_some_iff.mp h
          cases heq
          exact hd.append hnew _
      · split at h
        · cases h
        · obtain ⟨changed, -, heq⟩ := Option.bind_eq_some_iff.mp h
          cases heq
          exact hd.replace _ _
      · obtain ⟨last, -, h⟩ := Option.bind_eq_some_iff.mp h
        obtain ⟨changed, -, heq⟩ := Option.bind_eq_some_iff.mp h
        cases heq
        exact hd.replace _ _
      · cases h

/-- A pair with a dotted path keeps keys distinct. -/
theorem keepsDistinct_addPair (path : List Key) (key : Key) (value : Value) :
    KeepsDistinct fun t => t.addPair path key value := by
  refine keepsDistinct_alter (fun t t' h hd => ?_) true path
  split at h
  · cases h
  · split at h
    · next hnew =>
        cases h
        exact hd.append hnew _
    · cases h

theorem entries_reach (t : Table) (value : Value) : (t.reach value).entries = t.entries := by
  rw [reach]
  split <;> rfl

end Table

/-- A statement keeps the keys of a draft distinct. -/
theorem Draft.distinct_add {d d' : Draft} {statement : Statement} (h : d.add statement = some d')
    (hd : d.root.Distinct) : d'.root.Distinct := by
  cases statement with
  | header range path key =>
      obtain ⟨root, hroot, heq⟩ := Option.bind_eq_some_iff.mp h
      cases heq
      exact Table.keepsDistinct_alter (Table.keepsDistinct_openHeader range key) _ _ hroot hd
  | element range path key =>
      obtain ⟨root, hroot, heq⟩ := Option.bind_eq_some_iff.mp h
      cases heq
      exact Table.keepsDistinct_alter (Table.keepsDistinct_openElement range key) _ _ hroot hd
  | pair path key value =>
      obtain ⟨root, hroot, heq⟩ := Option.bind_eq_some_iff.mp h
      cases heq
      refine Table.keepsDistinct_alter (fun t t' hinto ht => ?_) _ _ hroot hd
      obtain ⟨added, hadded, rfl⟩ := Option.map_eq_some_iff.mp hinto
      rw [Table.Distinct, Table.entries_reach]
      exact Table.keepsDistinct_addPair path key value hadded ht

/-- A sequence of statements keeps the keys of a draft distinct. -/
theorem Draft.distinct_addAll {statements : List Statement} {d d' : Draft}
    (h : statements.foldlM Draft.add d = some d') (hd : d.root.Distinct) : d'.root.Distinct := by
  induction statements generalizing d with
  | nil =>
      cases h
      exact hd
  | cons statement rest ih =>
      rw [List.foldlM_cons] at h
      obtain ⟨next, hnext, hrest⟩ := Option.bind_eq_some_iff.mp h
      exact ih hrest (distinct_add hnext hd)

/-- A document gives no key twice. -/
theorem distinct_of_read? {text : List Char} {t : Table} (h : read? text = some t) :
    t.Distinct := by
  obtain ⟨statements, -, hstatements⟩ := Option.bind_eq_some_iff.mp h
  obtain ⟨draft, hdraft, rfl⟩ := Option.map_eq_some_iff.mp hstatements
  exact Draft.distinct_addAll hdraft List.nodup_nil

/-! ## items -/

/-- The item holds nothing. -/
def Item.Empty : Item → Prop
  | .value (.array _ items) => items = []
  | .value (.inlineTable _ entries) => entries = []
  | .value _ => False
  | .table t => t.entries = []
  | .tables elements => elements = []

/-- The entries of an item that is a table, in whatever way it is written. -/
def Item.entries? : Item → Option (List (Key × Item))
  | .table t => some t.entries
  | .value (.inlineTable _ entries) => some (entries.map fun e => (e.1, .value e.2))
  | .value _ | .tables _ => none

end Toml

/-! ## names of policies -/

/-- The name of a policy in a document. -/
def Policy.name : Policy → String
  | .raise => "raise"
  | .fallback => "fallback"

namespace Config

/-- A policy is read from its own name only. -/
theorem policyOfName?_eq_some_iff (name : String) (policy : Policy) :
    policyOfName? name = some policy ↔ name = policy.name := by
  rw [policyOfName?]
  split
  · next h => cases policy <;> simp [h, Policy.name]
  · next hraise =>
      split
      · next h => cases policy <;> simp [h, Policy.name]
      · next hfallback => cases policy <;> simp [hraise, hfallback, Policy.name]

/-- A name is accepted if it is that of the policy. -/
theorem policyOfName_eq_ok_iff (range : Range) (name : String) (policy : Policy) :
    policyOfName range name = .ok policy ↔ name = policy.name := by
  rw [← policyOfName?_eq_some_iff, policyOfName]
  split <;> simp [*]

/-- What follows the name of a policy is accepted just if it is empty. -/
theorem contentFault?_eq_none_iff (item : Toml.Item) :
    contentFault? item = none ↔ item.Empty := by
  cases item with
  | value v =>
      cases v with
      | array range items => cases items <;> simp [contentFault?, Toml.Item.Empty]
      | inlineTable range entries => cases entries <;> simp [contentFault?, Toml.Item.Empty]
      | string | integer | float | boolean | datetime => simp [contentFault?, Toml.Item.Empty]
  | table t =>
      obtain ⟨origin, range, entries⟩ := t
      cases entries <;> simp [contentFault?, Toml.Item.Empty, Toml.Table.entries]
  | tables elements => cases elements <;> simp [contentFault?, Toml.Item.Empty]

/-! ## one setting -/

/-- An item names a policy: it is the name as a string, or a table whose only key is the name and
stands for nothing. -/
inductive Names (policy : Policy) : Toml.Item → Prop
  | string (range : Range) : Names policy (.value (.string range policy.name))
  | table {item content : Toml.Item} {key : Toml.Key}
      (honly : item.entries? = some [(key, content)]) (hname : key.text = policy.name)
      (hempty : content.Empty) : Names policy item

/-- A policy written as a table is accepted with one entry: its name, with an empty content. -/
theorem policyOfEntries_eq_ok_iff (around : Range) (entries : List (Toml.Key × Toml.Item))
    (policy : Policy) :
    policyOfEntries around entries = .ok policy ↔
      ∃ key content, entries = [(key, content)] ∧ key.text = policy.name ∧ content.Empty := by
  match entries with
  | [] => simp [policyOfEntries]
  | [(key, content)] =>
      have hname := policyOfName_eq_ok_iff key.range key.text policy
      have hempty := contentFault?_eq_none_iff content
      rw [policyOfEntries]
      cases hnamed : policyOfName key.range key.text with
      | error problem =>
          rw [hnamed] at hname
          simp [bind, Except.bind, ← hname]
      | ok named =>
          rw [hnamed, Except.ok.injEq] at hname
          cases hfault : contentFault? content with
          | none => simp [bind, Except.bind, pure, Except.pure, hfault, ← hname, ← hempty]
          | some cause => simp [bind, Except.bind, hfault, ← hempty]
  | _ :: _ :: _ => simp [policyOfEntries]

/-- What it is for a table to name a policy. -/
theorem names_iff_of_entries? {item : Toml.Item} {entries : List (Toml.Key × Toml.Item)}
    (h : item.entries? = some entries) (policy : Policy) :
    Names policy item ↔
      ∃ key content, entries = [(key, content)] ∧ key.text = policy.name ∧ content.Empty := by
  constructor
  · rintro (_ | ⟨honly, hname, hempty⟩)
    · cases h
    · exact ⟨_, _, Option.some.inj (h.symm.trans honly), hname, hempty⟩
  · rintro ⟨key, content, rfl, hname, hempty⟩
    exact .table h hname hempty

/-- An item is accepted as the policy that it names. -/
theorem policyOfItem_eq_ok_iff (keyRange : Range) (item : Toml.Item) (policy : Policy) :
    policyOfItem keyRange item = .ok policy ↔ Names policy item := by
  cases item with
  | value v =>
      cases v with
      | string range name =>
          refine (policyOfName_eq_ok_iff _ _ _).trans ⟨?_, ?_⟩
          · rintro rfl
            exact .string range
          · rintro (_ | ⟨honly, _, _⟩)
            · rfl
            · cases honly
      | inlineTable range entries =>
          exact (policyOfEntries_eq_ok_iff _ _ _).trans (names_iff_of_entries? rfl policy).symm
      | array | integer | float | boolean | datetime =>
          refine iff_of_false (by simp [policyOfItem]) ?_
          rintro (_ | ⟨honly, _, _⟩)
          cases honly
  | table t =>
      exact (policyOfEntries_eq_ok_iff _ _ _).trans (names_iff_of_entries? rfl policy).symm
  | tables elements =>
      refine iff_of_false (by simp [policyOfItem]) ?_
      rintro (_ | ⟨honly, _, _⟩)
      cases honly

/-! ## all settings -/

/-- A document configures a policy: it has no key but that of the policy, and what this key
stands for names the policy, or the key is not there and the policy is the default. -/
structure Configures (t : Toml.Table) (policy : Policy) : Prop where
  known : ∀ entry ∈ t.entries, entry.1.text = policyKey
  setting : (t.find? policyKey = none ∧ policy = .raise) ∨
    ∃ item, t.find? policyKey = some item ∧ Names policy item

/-- Every entry of a document that configures a policy is the setting of this policy. -/
theorem Configures.setting_of_mem {t : Toml.Table} {policy : Policy} (h : Configures t policy)
    (hd : t.Distinct) {entry : Toml.Key × Toml.Item} (hmem : entry ∈ t.entries) :
    entry.1.text = policyKey ∧ Names policy entry.2 := by
  have hkey := h.known entry hmem
  have hfound : t.find? policyKey = some entry.2 := hkey ▸ Toml.lookup?_of_mem hd hmem
  obtain ⟨hnone, _⟩ | ⟨item, hfind, hnames⟩ := h.setting
  · cases hfound.symm.trans hnone
  · cases hfound.symm.trans hfind
    exact ⟨hkey, hnames⟩

/-- What one entry of a document configures. -/
def policyOfEntry (entry : Toml.Key × Toml.Item) : Except Problem Policy :=
  if entry.1.text = policyKey then policyOfItem entry.1.range entry.2
  else .error ⟨entry.1.range, .unknownField entry.1.text⟩

theorem policyOfTable_eq (t : Toml.Table) :
    policyOfTable t = t.entries.foldlM (fun _ entry => policyOfEntry entry) .raise := rfl

/-- An entry of a settings table is accepted if its key is the one known and its item names a
policy. -/
theorem policyOfEntry_eq_ok_iff (entry : Toml.Key × Toml.Item) (policy : Policy) :
    policyOfEntry entry = .ok policy ↔ entry.1.text = policyKey ∧ Names policy entry.2 := by
  rw [policyOfEntry]
  split
  · next h => simp [h, policyOfItem_eq_ok_iff]
  · next h => simp [h]

/-- An unknown key is an error wherever it stands. -/
theorem known_of_foldlM {entries : List (Toml.Key × Toml.Item)} {default policy : Policy}
    (h : entries.foldlM (fun _ entry => policyOfEntry entry) default = .ok policy) :
    ∀ entry ∈ entries, entry.1.text = policyKey := by
  induction entries generalizing default with
  | nil => simp
  | cons first rest ih =>
      rw [List.foldlM_cons] at h
      cases hfirst : policyOfEntry first with
      | error problem =>
          rw [hfirst] at h
          cases h
      | ok named =>
          rw [hfirst] at h
          intro entry hmem
          obtain rfl | hmem := List.mem_cons.mp hmem
          · exact ((policyOfEntry_eq_ok_iff _ _).mp hfirst).1
          · exact ih h entry hmem

/-- Distinct keys that are all known are at most one. -/
theorem eq_nil_or_singleton {t : Toml.Table} (hd : t.Distinct)
    (hknown : ∀ entry ∈ t.entries, entry.1.text = policyKey) :
    t.entries = [] ∨ ∃ entry, t.entries = [entry] := by
  rw [Toml.Table.Distinct, Toml.keyTexts] at hd
  match h : t.entries with
  | [] => exact .inl rfl
  | [entry] => exact .inr ⟨entry, rfl⟩
  | first :: second :: rest =>
      rw [h] at hd hknown
      have hfirst := hknown first (by simp)
      have hsecond := hknown second (by simp)
      simp [hfirst, hsecond] at hd

/-- The default is what there is before the first entry, so it stays only if there is none. -/
theorem policyOfTable_eq_ok_iff {t : Toml.Table} (hd : t.Distinct) (policy : Policy) :
    policyOfTable t = .ok policy ↔ Configures t policy := by
  rw [policyOfTable_eq]
  constructor
  · intro h
    have hknown := known_of_foldlM h
    refine ⟨hknown, ?_⟩
    obtain hnone | ⟨entry, hentry⟩ := eq_nil_or_singleton hd hknown
    · rw [hnone, List.foldlM_nil] at h
      cases h
      exact .inl ⟨by rw [Toml.Table.find?, hnone, Toml.lookup?], rfl⟩
    · have hmem : entry ∈ t.entries := by simp [hentry]
      have hpolicy : policyOfEntry entry = .ok policy := by simpa [hentry] using h
      obtain ⟨hkey, hnames⟩ := (policyOfEntry_eq_ok_iff entry policy).mp hpolicy
      exact .inr ⟨entry.2, hkey ▸ Toml.lookup?_of_mem hd hmem, hnames⟩
  · intro h
    obtain hnone | ⟨entry, hentry⟩ := eq_nil_or_singleton hd h.known
    · obtain ⟨_, rfl⟩ | ⟨item, hfind, _⟩ := h.setting
      · rw [hnone]
        rfl
      · simp [Toml.Table.find?, hnone, Toml.lookup?] at hfind
    · have hmem : entry ∈ t.entries := by simp [hentry]
      simpa [hentry] using (policyOfEntry_eq_ok_iff entry policy).mpr (h.setting_of_mem hd hmem)

/-! ## reading -/

/-- What is read from a text is what the document in it configures.  One entry that has any other
key, be it the right one in other letters, or that does not name a policy is enough for the
document to be refused with a message. -/
structure Reads (t : Toml.Table) (result : Except Refusal Policy) : Prop where
  accepted : ∀ policy, result = .ok policy ↔ Configures t policy
  refused : ∀ entry ∈ t.entries, (entry.1.text ≠ policyKey ∨ ∀ policy, ¬ Names policy entry.2) →
    ∃ message, result = .error (.problem message)

variable {parse : List Char → Option Toml.Table} {text : String} {t : Toml.Table}

/-- Once a text is parsed, the table decides what is read. -/
theorem readWith_of_parse (h : parse text.toList = some t) :
    readWith parse text = (policyOfTable t).mapError fun p => .problem (p.text text.toList) := by
  cases hpolicy : policyOfTable t <;> simp [readWith, h, hpolicy, Except.mapError]

/-- How the document was found in the text does not matter, if it has every key once. -/
theorem reads_readWith (h : parse text.toList = some t) (hdistinct : t.Distinct) :
    Reads t (readWith parse text) := by
  rw [readWith_of_parse h]
  constructor
  · intro policy
    rw [← policyOfTable_eq_ok_iff hdistinct]
    cases policyOfTable t <;> simp [Except.mapError]
  · intro entry hmem hwrong
    cases hpolicy : policyOfTable t with
    | error p => exact ⟨p.text text.toList, by rw [Except.mapError]⟩
    | ok policy =>
        have hconfigures := (policyOfTable_eq_ok_iff hdistinct policy).mp hpolicy
        obtain ⟨hkey, hnames⟩ := hconfigures.setting_of_mem hdistinct hmem
        obtain hne | hno := hwrong
        · exact absurd hkey hne
        · exact absurd hnames (hno policy)

/-- A document has every key once, and what is read from its text is what it configures.  The
same holds with any other reader of documents where the document it finds has every key once. -/
theorem read_strict (text : String) (t : Toml.Table) :
    (Toml.read? text.toList = some t → t.Distinct ∧ Reads t (read text)) ∧
      ∀ parse : List Char → Option Toml.Table, parse text.toList = some t → t.Distinct →
        Reads t (readWith parse text) := by
  constructor
  · intro h
    have hdistinct : t.Distinct := Toml.distinct_of_read? h
    exact ⟨hdistinct, reads_readWith h hdistinct⟩
  · intro parse h hdistinct
    exact reads_readWith h hdistinct

/-- A table whose only entry is an empty array names a policy.  A key in capitals is refused,
though it stands for the name of one, also by a reader that takes any text for this document. -/
theorem read_strict_capitals :
    let table := "[native-arg-errors]\nfallback = []"
    let capitals := "Native-Arg-Errors = \"fallback\""
    (∃ t, Toml.read? table.toList = some t ∧ read table = .ok .fallback ∧
        Configures t .fallback ∧ ¬ Configures t .raise) ∧
      ∃ t, Toml.read? capitals.toList = some t ∧ (∀ policy, ¬ Configures t policy) ∧
        (∃ message, read capitals = .error (.problem message)) ∧
        ∃ message, readWith (fun _ => some t) table = .error (.problem message) := by
  intro table capitals
  constructor
  · have htoml : (Toml.read? table.toList).isSome = true := by decide +kernel
    have hpolicy : (read table).toOption = some .fallback := by decide +kernel
    obtain ⟨t, ht⟩ := Option.isSome_iff_exists.mp htoml
    obtain ⟨-, hreads⟩ := (read_strict table t).1 ht
    have hok : read table = .ok .fallback := by
      cases h : read table with
      | ok policy => simpa [h, Except.toOption] using hpolicy
      | error refusal => simp [h, Except.toOption] at hpolicy
    refine ⟨t, ht, hok, (hreads.accepted .fallback).mp hok, fun hraise => ?_⟩
    cases hok.symm.trans ((hreads.accepted .raise).mpr hraise)
  · have hkeys : (Toml.read? capitals.toList).map (fun t => Toml.keyTexts t.entries) =
        some ["Native-Arg-Errors"] := by decide +kernel
    obtain ⟨t, ht, hkeys⟩ := Option.map_eq_some_iff.mp hkeys
    obtain ⟨hdistinct, hreads⟩ := (read_strict capitals t).1 ht
    have hany := (read_strict table t).2 (fun _ => some t) rfl hdistinct
    obtain ⟨entry, hmem, hkey⟩ := List.mem_map.mp (hkeys ▸ List.mem_cons_self)
    have hne : entry.1.text ≠ policyKey := by
      rw [hkey]
      decide
    obtain ⟨message, herror⟩ := hreads.refused entry hmem (.inl hne)
    refine ⟨t, ht, fun policy h => ?_, ⟨message, herror⟩, hany.refused entry hmem (.inl hne)⟩
    cases herror.symm.trans ((hreads.accepted policy).mpr h)

end Config

end FieldScript
