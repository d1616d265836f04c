import Mathlib.Data.List.Forall2
import Mathlib.Data.List.Nodup
import Minifier.Json.Record
import Minifier.Proofs.Json.Reading

/-!
# Records that are written in different ways

A record may be written as an object, with its fields in any order and others among them, or as the list
of its fields. Fields that have a default may be dropped from an object. `RecordShown` says which values
show a record in this sense, and the readers of records give the same for all of them. It does not matter
whether they read a value or the draft of its text.
-/

namespace Minifier.Json

/-! ## Nesting -/

mutual

/-- How many lists and objects are nested in a value. -/
def depth : Json → Nat
  | .arr items => itemsDepth items + 1
  | .obj fields => fieldsDepth fields + 1
  | .null | .bool _ | .int _ | .float _ | .str _ => 0

/-- How many lists and objects are nested in the items of a list. -/
def itemsDepth : List Json → Nat
  | [] => 0
  | item :: rest => max item.depth (itemsDepth rest)

/-- How many lists and objects are nested in the fields of an object. -/
def fieldsDepth : List (String × Json) → Nat
  | [] => 0
  | (_, value) :: rest => max value.depth (fieldsDepth rest)

end

/-- A list of values is nested no deeper than each of them. -/
theorem itemsDepth_le_iff {items : List Json} {n : Nat} :
    itemsDepth items ≤ n ↔ ∀ item ∈ items, item.depth ≤ n := by
  induction items with
  | nil => simp [itemsDepth]
  | cons item rest ih => simp [itemsDepth, ih]

/-- A list of fields is nested no deeper than the value of each. -/
theorem fieldsDepth_le_iff {fields : List (String × Json)} {n : Nat} :
    fieldsDepth fields ≤ n ↔ ∀ field ∈ fields, field.2.depth ≤ n := by
  induction fields with
  | nil => simp [fieldsDepth]
  | cons field rest ih =>
    obtain ⟨key, value⟩ := field
    simp [fieldsDepth, ih]

namespace Draft

/-- The drafts of the items are drawn up one by one. -/
theorem ofItems_eq (items : List Json) : ofItems items = items.map ofJson := by
  induction items with
  | nil => rfl
  | cons item rest ih => rw [ofItems, ih, List.map_cons]

/-- So are those of the fields, whose keys are all sound. -/
theorem ofFields_eq (fields : List (String × Json)) :
    ofFields fields = fields.map fun field => (.ok field.1, ofJson field.2) := by
  induction fields with
  | nil => rfl
  | cons field rest ih =>
    obtain ⟨key, value⟩ := field
    rw [ofFields, ih, List.map_cons]

mutual

/-- The draft of a value that is not nested too deeply is taken in whole. -/
theorem settle_ofJson : (j : Json) → ∀ {n : Nat}, j.depth ≤ n → (ofJson j).settle n = .ok j
  | .null, _, _ | .bool _, _, _ | .int _, _, _ | .float _, _, _ | .str _, _, _ => by
    rw [ofJson, settle]
  | .arr items, n, shallow => by
    obtain ⟨n, rfl⟩ : ∃ less, n = less + 1 := ⟨n - 1, by rw [depth] at shallow; omega⟩
    have inside := settleItems_ofItems items (Nat.le_of_succ_le_succ shallow)
    simp only [ofJson, settle, inside]
  | .obj fields, n, shallow => by
    obtain ⟨n, rfl⟩ : ∃ less, n = less + 1 := ⟨n - 1, by rw [depth] at shallow; omega⟩
    have inside := settleFields_ofFields fields (Nat.le_of_succ_le_succ shallow)
    simp only [ofJson, settle, inside]

theorem settleItems_ofItems : (items : List Json) → ∀ {n : Nat}, itemsDepth items ≤ n →
    settleItems n (ofItems items) = .ok items
  | [], _, _ => by rw [ofItems, settleItems]
  | item :: rest, n, shallow => by
    obtain ⟨first, others⟩ := max_le_iff.mp shallow
    rw [ofItems, settleItems, settle_ofJson item first, settleItems_ofItems rest others]
    rfl

theorem settleFields_ofFields : (fields : List (String × Json)) → ∀ {n : Nat},
    fieldsDepth fields ≤ n → settleFields n (ofFields fields) = .ok fields
  | [], _, _ => by rw [ofFields, settleFields]
  | (key, value) :: rest, n, shallow => by
    obtain ⟨first, others⟩ := max_le_iff.mp shallow
    rw [ofFields, settleFields, settle_ofJson value first, settleFields_ofFields rest others]
    rfl

end

mutual

/-- Nothing is wrong with the draft of a value for one who passes over it. -/
theorem skipFault?_ofJson : (j : Json) → (ofJson j).skipFault? = none
  | .null | .bool _ | .int _ | .float _ | .str _ => by rw [ofJson, skipFault?]
  | .arr items => by
    rw [ofJson, skipFault?, itemsSkipFault?_ofItems items]
    rfl
  | .obj fields => by
    rw [ofJson, skipFault?, fieldsSkipFault?_ofFields fields]
    rfl

theorem itemsSkipFault?_ofItems : (items : List Json) → itemsSkipFault? (ofItems items) = none
  | [] => by rw [ofItems, itemsSkipFault?]
  | item :: rest => by
    rw [ofItems, itemsSkipFault?, skipFault?_ofJson item, itemsSkipFault?_ofItems rest]
    rfl

theorem fieldsSkipFault?_ofFields : (fields : List (String × Json)) →
    fieldsSkipFault? (ofFields fields) = none
  | [] => by rw [ofFields, fieldsSkipFault?]
  | (key, value) :: rest => by
    rw [ofFields, fieldsSkipFault?, skipFault?_ofJson value, fieldsSkipFault?_ofFields rest]
    rfl

end

end Draft

/-! ## Fields -/

/-- A field of a record as it may be written: its name, the values that may stand there, and whether it
may be dropped from an object. -/
structure Field where
  name : String
  accepts : Json → Prop
  mayDrop : Prop

/-- A field that may not be dropped. -/
def Field.always (name : String) (accepts : Json → Prop) : Field :=
  ⟨name, accepts, False⟩

@[simp]
theorem Field.name_always (name : String) (accepts : Json → Prop) :
    (Field.always name accepts).name = name := rfl

/-- The field is shown in an object: its name stands there once, or not at all if it may be dropped. -/
def Field.ShownIn (f : Field) (entries : List (String × Json)) : Prop :=
  match entries.filter fun entry => entry.1 == f.name with
  | [] => f.mayDrop
  | [entry] => f.accepts entry.2
  | _ => False

/-- A field is shown by the one entry that has its name. -/
theorem Field.ShownIn.once {f : Field} {entries : List (String × Json)} {entry : String × Json}
    (once : (entries.filter fun entry => entry.1 == f.name) = [entry]) (accepted : f.accepts entry.2) :
    f.ShownIn entries := by
  rw [Field.ShownIn, once]
  exact accepted

/-- A field that may be dropped is shown by its absence. -/
theorem Field.ShownIn.dropped {f : Field} {entries : List (String × Json)}
    (absent : (entries.filter fun entry => entry.1 == f.name) = []) (may : f.mayDrop) :
    f.ShownIn entries := by
  rw [Field.ShownIn, absent]
  exact may

/-- The value shows a record with the given fields. It is the list of all fields, or an object in which
each of them is shown, in any place and whatever else stands there. -/
inductive RecordShown (fields : List Field) : Json → Prop
  | list {values : List Json} (each : List.Forall₂ Field.accepts fields values) :
    RecordShown fields (.arr values)
  | object {entries : List (String × Json)} (each : ∀ f ∈ fields, f.ShownIn entries) :
    RecordShown fields (.obj entries)

theorem RecordShown.none {entries : List (String × Json)} : RecordShown [] (.obj entries) :=
  .object nofun

/-- A record is shown with one field more if that field is shown too. -/
theorem RecordShown.field {f : Field} {fields : List Field} {entries : List (String × Json)}
    (here : f.ShownIn entries) (others : RecordShown fields (.obj entries)) :
    RecordShown (f :: fields) (.obj entries) := by
  cases others with
  | object each => exact .object (List.forall_mem_cons.mpr ⟨here, each⟩)

/-- Only a list or an object shows a record. -/
theorem RecordShown.depth_pos {fields : List Field} {j : Json} (shown : RecordShown fields j) :
    0 < j.depth := by
  cases shown <;> exact Nat.succ_pos _

theorem RecordShown.not_null {fields : List Field} : ¬ RecordShown fields .null :=
  nofun

/-- A record is shown by the object that has its fields in order. -/
theorem RecordShown.of_entries {fields : List Field} {entries : List (String × Json)}
    (each : List.Forall₂ (fun f entry => entry.1 = f.name ∧ f.accepts entry.2) fields entries)
    (distinct : (fields.map Field.name).Nodup) : RecordShown fields (.obj entries) := by
  refine .object ?_
  induction each with
  | nil => simp
  | @cons f entry fields entries head tail ih =>
    obtain ⟨fresh, distinct⟩ := List.nodup_cons.mp distinct
    have keys : fields.map Field.name = entries.map Prod.fst := by
      rw [← List.forall₂_eq_eq_eq, List.forall₂_map_left_iff, List.forall₂_map_right_iff]
      exact tail.imp fun _ _ both => both.1.symm
    intro shown mem
    obtain rfl | later := List.mem_cons.mp mem
    · have absent : (entries.filter fun entry => entry.1 == shown.name) = [] := by
        refine List.filter_eq_nil_iff.mpr fun other found same => fresh ?_
        rw [keys, ← eq_of_beq same]
        exact List.mem_map_of_mem found
      exact .once (by rw [List.filter_cons_of_pos (by simpa using head.1), absent]) head.2
    · have other : entry.1 ≠ shown.name := by
        rw [head.1]
        exact fun same => fresh (same ▸ List.mem_map_of_mem later)
      rw [Field.ShownIn, List.filter_cons_of_neg (by simpa using other)]
      exact ih distinct shown later

/-! ## Where a field is found -/

section Locate

variable {V : Type} (g : Json → V)

/-- A field that no entry has the name of is not found. -/
theorem locate_eq_none {name : String} {entries : List (String × Json)} (rank : Nat)
    (absent : (entries.filter fun entry => entry.1 == name) = []) :
    locate name rank (entries.map fun entry => (.ok entry.1, g entry.2)) = none := by
  induction entries generalizing rank with
  | nil => rfl
  | cons entry rest ih =>
    rw [List.filter_cons] at absent
    split at absent
    · cases absent
    · next other =>
      rw [List.map_cons, locate, Key.isName, if_neg other]
      exact ih (rank + 1) absent

/-- A field that one entry has the name of is found there, and no second one behind it. -/
theorem locate_eq_some {name : String} {entry : String × Json} {entries : List (String × Json)}
    (rank : Nat) (once : (entries.filter fun entry => entry.1 == name) = [entry]) :
    ∃ place, locate name rank (entries.map fun entry => (.ok entry.1, g entry.2)) =
      some (place, g entry.2, none) := by
  induction entries generalizing rank with
  | nil => cases once
  | cons first rest ih =>
    rw [List.filter_cons] at once
    rw [List.map_cons, locate, Key.isName]
    split at once
    · next found =>
      obtain ⟨rfl, noMore⟩ := List.cons.inj once
      refine ⟨rank, ?_⟩
      have last : (rest.map fun entry => ((.ok entry.1 : Key), g entry.2)).findIdx?
          (fun field => Key.isName field.1 name) = none := by
        rw [List.findIdx?_eq_none_iff]
        intro field mem
        obtain ⟨entry, inRest, rfl⟩ := List.mem_map.mp mem
        simpa [Key.isName] using List.filter_eq_nil_iff.mp noMore entry inRest
      rw [if_pos found, last]
      rfl
    · next other =>
      rw [if_neg other]
      exact ih (rank + 1) once

end Locate

/-! ## Readers -/

/-- The reader gives `x` for all values that show it, if these are nested no more than `n` deep. It is
handed what `g` makes of them. -/
def Reads {V α : Type} (g : Json → V) (f : V → Decoded α) (shows : Json → Prop) (n : Nat) (x : α) : Prop :=
  ∀ j, shows j → j.depth ≤ n → f (g j) = .ok x

section Reads

variable {V α β : Type} {g : Json → V} {f : V → Decoded α} {shows : Json → Prop} {m n : Nat} {x : α}

/-- A reader that goes down `n` levels goes down fewer. -/
theorem Reads.mono (reads : Reads g f shows n x) (le : m ≤ n) : Reads g f shows m x :=
  fun j shown shallow => reads j shown (shallow.trans le)

/-- What is read is handed on. -/
theorem Reads.bind {k : α → Decoded β} {y : β} (reads : Reads g f shows n x) (next : k x = .ok y) :
    Reads g (fun value => f value >>= k) shows n y := by
  intro j shown shallow
  dsimp only
  rw [reads j shown shallow]
  exact next

theorem Reads.map (reads : Reads g f shows n x) (h : α → β) :
    Reads g (fun value => f value >>= fun y => return h y) shows n (h x) :=
  reads.bind rfl

end Reads

/-! ## Readers of records -/

namespace Record

/-- The reader of a record gives `x` for all parts that show its fields, if these are nested no more than
`n` deep. The parts are values as `g` gives them. -/
structure Takes {V α : Type} (g : Json → V) (n : Nat) (r : Record V α) (fields : List Field) (x : α) :
    Prop where
  names : r.names = fields.map Field.name
  ofItems : ∀ short before {values} after, List.Forall₂ Field.accepts fields values →
    (∀ value ∈ values, value.depth ≤ n) →
      r.read short before.length (.items ((before ++ (values ++ after)).map g)) = .ok x
  ofEntries : ∀ short start {entries}, (∀ f ∈ fields, f.ShownIn entries) →
    (∀ entry ∈ entries, entry.2.depth ≤ n) →
      r.read short start (.ofFields (entries.map fun entry => (entry.1, g entry.2))) = .ok x

variable {V α β : Type} {g : Json → V} {n : Nat} {fields : List Field} {shows : Json → Prop}
  {name : String} {x : α}

/-- A record without fields is read from anything. -/
theorem takes_pure (x : α) : (pure x : Record V α).Takes g n [] x :=
  ⟨rfl, fun _ _ _ _ _ _ => rfl, fun _ _ _ _ _ => rfl⟩

/-- The values of two groups of fields are the values of the one and then those of the other. -/
theorem exists_append_of_forall₂ {fields more : List Field} {values : List Json}
    (each : List.Forall₂ Field.accepts (fields ++ more) values) :
    ∃ first second, values = first ++ second ∧ List.Forall₂ Field.accepts fields first ∧
      List.Forall₂ Field.accepts more second :=
  ⟨values.take fields.length, values.drop fields.length, (List.take_append_drop _ _).symm,
    (List.forall₂_take_append values fields more each.flip).flip,
    (List.forall₂_drop_append values fields more each.flip).flip⟩

/-- Two groups of fields are read one after the other: from a list in order, from an object by name. -/
theorem Takes.seq {f : Record V (α → β)} {x : Record V α} {first second : List Field} {make : α → β}
    {a : α} (head : f.Takes g n first make) (tail : x.Takes g n second a) :
    (f.seq x).Takes g n (first ++ second) (make a) where
  names := by rw [Record.seq, head.names, tail.names, List.map_append]
  ofItems short before values after each shallow := by
    obtain ⟨values, others, rfl, inFirst, inSecond⟩ := exists_append_of_forall₂ each
    rw [List.forall_mem_append] at shallow
    have count : f.names.length = values.length := by
      rw [head.names, List.length_map, inFirst.length_eq]
    have made := head.ofItems short before (others ++ after) inFirst shallow.1
    have argument := tail.ofItems short (before ++ values) after inSecond shallow.2
    rw [List.append_assoc, List.length_append, ← count] at argument
    rw [List.append_assoc, Record.seq]
    dsimp only
    rw [made, argument]
    rfl
  ofEntries short start entries each shallow := by
    rw [List.forall_mem_append] at each
    have made := head.ofEntries short start each.1 shallow
    have argument := tail.ofEntries short (start + f.names.length) each.2 shallow
    rw [Record.seq]
    dsimp only
    rw [made, argument]
    rfl

theorem Takes.map {r : Record V α} (takes : r.Takes g n fields x) (h : α → β) :
    (h <$> r).Takes g n fields (h x) :=
  (takes_pure h).seq takes

/-- A field is read from its place in a list, from the entry with its name, or from its default if it
may be dropped. -/
theorem takes_fieldWith {mayDrop : Prop} {ofKeys ofItems : Option α} {f : V → Decoded α}
    (reads : Reads g f shows n x) (drops : mayDrop → ofKeys = some x) :
    (fieldWith name ofKeys ofItems f).Takes g n [⟨name, shows, mayDrop⟩] x where
  names := rfl
  ofItems short before values after each shallow := by
    obtain - | ⟨accepted, - | -⟩ := each
    have read := reads _ accepted (shallow _ List.mem_cons_self)
    simp [fieldWith, read, Ranked.place, Except.mapError]
  ofEntries short start entries each shallow := by
    have shown := each _ List.mem_cons_self
    unfold Field.ShownIn at shown
    rw [fieldWith, Parts.ofFields, List.map_map]
    dsimp only [Function.comp_def]
    split at shown
    · next absent =>
      rw [locate_eq_none g 0 absent, drops shown]
    · next entry once =>
      obtain ⟨place, found⟩ := locate_eq_some g 0 once
      have mem : entry ∈ entries := List.mem_of_mem_filter (once ▸ List.mem_cons_self)
      rw [found]
      simp [reads _ shown (shallow entry mem), Ranked.place, Except.mapError]
    · exact shown.elim

/-- A field without a default is always shown. -/
theorem takes_required {f : V → Decoded α} (reads : Reads g f shows n x) :
    (required name f).Takes g n [.always name shows] x :=
  takes_fieldWith reads False.elim

/-- A field may be dropped if it has its default. -/
theorem takes_defaulted {f : V → Decoded α} {usual : α} (reads : Reads g f shows n x) :
    (defaulted name usual f).Takes g n [⟨name, shows, x = usual⟩] x :=
  takes_fieldWith reads fun same => congrArg some same.symm

/-- A record is read from the list of its fields. -/
theorem ofJson_list {r : Record Json α} {values : List Json} (takes : r.Takes id n fields x)
    (each : List.Forall₂ Field.accepts fields values) (shallow : itemsDepth values ≤ n) (shape : Shape) :
    r.ofJson shape (.arr values) = .ok x := by
  have read : r.read (r.short shape) 0 (.items values) = .ok x := by
    simpa using takes.ofItems (r.short shape) [] [] each (itemsDepth_le_iff.mp shallow)
  have count : ¬ r.names.length < values.length := by
    rw [takes.names, List.length_map, each.length_eq]
    exact lt_irrefl _
  simp only [ofJson, read, Ranked.forget, Except.mapError, if_neg count]

/-- A record is read from every value that shows it. -/
theorem reads_ofJson {r : Record Json α} (takes : r.Takes id n fields x) (name : String) :
    Reads id (r.ofJson (.record name)) (RecordShown fields) (n + 1) x := by
  intro j shown shallow
  cases shown with
  | list each => exact ofJson_list takes each (Nat.le_of_succ_le_succ shallow) _
  | @object entries each =>
    have inside := fieldsDepth_le_iff.mp (Nat.le_of_succ_le_succ shallow)
    have read : r.read (r.short (.record name)) 0 (.ofFields entries) = .ok x := by
      simpa using takes.ofEntries (r.short (.record name)) 0 each inside
    simp only [id, ofJson, Shape.record] at read ⊢
    rw [read]
    rfl

/-- A record is read from the draft of the list of its fields. -/
theorem ofDraft_list {r : Record Draft α} {values : List Json} (takes : r.Takes Draft.ofJson n fields x)
    (each : List.Forall₂ Field.accepts fields values) (shallow : itemsDepth values ≤ n) (shape : Shape) :
    r.ofDraft shape (.ofJson (.arr values)) = .ok x := by
  have read (short : Nat → DecodeError) : r.read short 0 (.items (values.map .ofJson)) = .ok x := by
    simpa using takes.ofItems short [] [] each (itemsDepth_le_iff.mp shallow)
  have count : ¬ r.names.length < (values.map Draft.ofJson).length := by
    rw [takes.names, List.length_map, List.length_map, each.length_eq]
    exact lt_irrefl _
  rw [Draft.ofJson, Draft.ofItems_eq]
  simp only [ofDraft, read, Ranked.forget, Except.mapError, listEnd, if_neg count]
  rfl

/-- Nothing is wrong with the entries that a record does not ask for. -/
theorem unwanted_ofFields (names : List String) (rank : Nat) (entries : List (String × Json)) :
    unwanted names none rank (Draft.ofFields entries) = .ok () := by
  induction entries generalizing rank with
  | nil => rfl
  | cons entry rest ih =>
    obtain ⟨key, value⟩ := entry
    rw [Draft.ofFields, unwanted, Draft.skipFault?_ofJson, ite_self]
    exact ih (rank + 1)

/-- A record is read from the draft of every value that shows it. -/
theorem reads_ofDraft {r : Record Draft α} (takes : r.Takes Draft.ofJson n fields x) (name : String) :
    Reads Draft.ofJson (r.ofDraft (.record name)) (RecordShown fields) (n + 1) x := by
  intro j shown shallow
  cases shown with
  | list each => exact ofDraft_list takes each (Nat.le_of_succ_le_succ shallow) _
  | @object entries each =>
    have inside := fieldsDepth_le_iff.mp (Nat.le_of_succ_le_succ shallow)
    have read : r.read (r.short (.record name)) 0 (.fields (Draft.ofFields entries)) = .ok x := by
      have whole := takes.ofEntries (r.short (.record name)) 0 each inside
      rwa [Parts.ofFields, List.map_map, Function.comp_def, ← Draft.ofFields_eq] at whole
    rw [Draft.ofJson]
    simp only [ofDraft, Shape.record] at read ⊢
    rw [read, unwanted_ofFields]
    rfl

end Record

/-! ## Variants -/

/-- A variant is found by its name, if the names are distinct. -/
theorem variantNamed_eq {known : List String} {name : String} {index : Nat} (distinct : known.Nodup)
    (here : known[index]? = some name) : variantNamed known name = .ok index := by
  obtain ⟨bound, rfl⟩ := List.getElem?_eq_some_iff.mp here
  have found : known.findIdx? (· == known[index]) = some index := by
    rw [List.findIdx?_eq_some_iff_getElem]
    refine ⟨bound, beq_self_eq_true _, fun other before => ?_⟩
    simpa [List.Nodup.getElem_inj_iff distinct] using before.ne
  rw [variantNamed, found]

/-- A tagged value without its tag. -/
def untagged : Json → Json
  | .obj entries => .obj (entries.filter fun entry => entry.1 != tagKey)
  | .arr (_ :: rest) => .arr rest
  | other => other

/-- The field that holds the tag. -/
def tagField (tag : String) : Field :=
  .always tagKey (· = .str tag)

@[simp]
theorem tagField_name (tag : String) : (tagField tag).name = tagKey := rfl

section Tagged

variable {tag : String} {index n : Nat} {known : List String} {fields : List Field} {j : Json}

/-- Without the tag, a value that shows a tagged record shows the record of the other fields. -/
theorem shown_untagged (apart : ∀ f ∈ fields, f.name ≠ tagKey)
    (shown : RecordShown (tagField tag :: fields) j) : RecordShown fields j.untagged := by
  cases shown with
  | list each =>
    cases each with
    | cons head tail => exact .list tail
  | @object entries each =>
    refine .object fun f mem => ?_
    have same : ((entries.filter fun entry => entry.1 != tagKey).filter fun entry => entry.1 == f.name) =
        entries.filter fun entry => entry.1 == f.name := by
      rw [List.filter_filter]
      refine List.filter_congr fun entry _ => ?_
      by_cases found : entry.1 = f.name
      · simp [found, apart f mem]
      · simp [found]
    have here := each f (List.mem_cons_of_mem _ mem)
    unfold Field.ShownIn at here ⊢
    rwa [same]

/-- A value is nested no deeper without its tag. -/
theorem depth_untagged_le (j : Json) : j.untagged.depth ≤ j.depth := by
  unfold untagged
  split
  · refine Nat.succ_le_succ (fieldsDepth_le_iff.mpr fun entry mem => ?_)
    exact fieldsDepth_le_iff.mp le_rfl entry (List.mem_of_mem_filter mem)
  · exact Nat.succ_le_succ (le_max_right _ _)
  · exact le_rfl

theorem tagField_shownIn {entries : List (String × Json)}
    (each : ∀ f ∈ tagField tag :: fields, f.ShownIn entries) : ∀ f ∈ [tagField tag], f.ShownIn entries :=
  List.forall_mem_singleton.mpr (each _ List.mem_cons_self)

/-- The tag of a shown record is told from the rest. -/
theorem toTagged_eq (named : variantNamed known tag = .ok index)
    (shown : RecordShown (tagField tag :: fields) j) (name : String) :
    toTagged name known j = .ok (index, j.untagged) := by
  have reads (n : Nat) : Reads id (toVariant known) (· = .str tag) n index := by
    rintro _ rfl -
    exact named
  cases shown with
  | list each =>
    obtain - | ⟨head, tail⟩ := each
    have read := reads _ _ head le_rfl
    rw [id] at read
    rw [toTagged, read]
    rfl
  | @object entries each =>
    have takes : (Record.required tagKey (toVariant known)).Takes id (fieldsDepth entries)
        [tagField tag] index :=
      Record.takes_required (reads _)
    have read := takes.ofEntries (fun _ => .missingField tagKey) 0 (tagField_shownIn each)
      (fieldsDepth_le_iff.mp le_rfl)
    simp only [id, List.map_id'] at read
    rw [toTagged, read]
    rfl

/-- All entries but the tag are taken in whole. -/
theorem settleUntagged_ofFields {entries : List (String × Json)}
    (shallow : ∀ entry ∈ entries, entry.2.depth ≤ n) (rank : Nat) :
    settleUntagged n none rank (Draft.ofFields entries) =
      .ok (entries.filter fun entry => entry.1 != tagKey) := by
  induction entries generalizing rank with
  | nil => rfl
  | cons entry rest ih =>
    obtain ⟨key, value⟩ := entry
    obtain ⟨here, later⟩ := List.forall_mem_cons.mp shallow
    rw [Draft.ofFields, settleUntagged]
    by_cases tagged : key = tagKey
    · rw [if_pos tagged, ih later, List.filter_cons_of_neg (by simpa using tagged)]
    · rw [if_neg tagged, Draft.settle_ofJson value here, ih later,
        List.filter_cons_of_pos (by simpa using tagged)]
      rfl

/-- The tag of a shown record is told from the rest in a draft too. -/
theorem taggedOfDraft_eq (named : variantNamed known tag = .ok index)
    (shown : RecordShown (tagField tag :: fields) j) (shallow : j.depth ≤ n) (name : String) :
    taggedOfDraft name known n (.ofJson j) = .ok (index, j.untagged) := by
  have reads (n : Nat) : Reads Draft.ofJson (ofPeek (toVariantName known)) (· = .str tag) n index := by
    rintro _ rfl -
    exact named
  cases shown with
  | list each =>
    obtain - | @⟨_, value, _, values, head, tail⟩ := each
    have rest : Draft.settle n (.arr (Draft.ofItems values) none) = .ok (.arr values) :=
      Draft.settle_ofJson (.arr values) ((Nat.succ_le_succ (le_max_right _ _)).trans shallow)
    rw [Draft.ofJson, Draft.ofItems, taggedOfDraft, reads _ value head le_rfl, ofSettled, rest]
    rfl
  | @object entries each =>
    have inside : ∀ entry ∈ entries, entry.2.depth ≤ n - 1 :=
      fieldsDepth_le_iff.mp (Nat.le_sub_one_of_lt shallow)
    have takes : (Record.required tagKey (ofPeek (toVariantName known))).Takes Draft.ofJson (n - 1)
        [tagField tag] index :=
      Record.takes_required (reads _)
    have read := takes.ofEntries (fun _ => .missingField tagKey) 0 (tagField_shownIn each) inside
    rw [Parts.ofFields, List.map_map, Function.comp_def, ← Draft.ofFields_eq] at read
    rw [Draft.ofJson, taggedOfDraft, read, settleUntagged_ofFields inside]
    rfl

variable {β : Type} {f : Nat × Json → Decoded β} {x : β}

/-- A tagged record is read from every value that shows it, by a reader that tells the tag from the rest
and hands the rest to a reader for the tag. -/
theorem reads_tagged {V : Type} {g : Json → V} {split : V → Decoded (Nat × Json)}
    (apart : ∀ f ∈ fields, f.name ≠ tagKey)
    (splits : ∀ j, RecordShown (tagField tag :: fields) j → j.depth ≤ n →
      split (g j) = .ok (index, j.untagged))
    (reads : Reads id (fun content => f (index, content)) (RecordShown fields) n x) :
    Reads g (fun value => split value >>= f) (RecordShown (tagField tag :: fields)) n x := by
  intro j shown shallow
  dsimp only
  rw [splits j shown shallow]
  exact reads _ (shown_untagged apart shown) ((depth_untagged_le j).trans shallow)

/-- The value is an object with the only key `name`, and what stands there is as `shows` says. -/
def choiceShows (name : String) (shows : Json → Prop) : Json → Prop
  | .obj [(key, value)] => key = name ∧ shows value
  | _ => False

end Tagged

section Choices

variable {β : Type} {name : String} {n : Nat} {known : List String} {shows : Json → Prop}
  {f : Nat × Option Json → Decoded β} {x : β}

/-- A choice with a content is read if the reader for its name reads the content. -/
theorem reads_toChoice (distinct : known.Nodup) (index : Nat) (here : known[index]? = some name)
    (reads : Reads id (fun value => f (index, some value)) shows n x) :
    Reads id (fun value => toChoice known value >>= f) (choiceShows name shows) n x := by
  intro j shown shallow
  unfold choiceShows at shown
  split at shown
  · next key value =>
    obtain ⟨rfl, inside⟩ := shown
    dsimp only [id, toChoice]
    rw [variantNamed_eq distinct here]
    exact reads value inside ((le_max_left _ _).trans (Nat.le_of_succ_le shallow))
  · exact shown.elim

/-- A choice without a content is read from its name. -/
theorem reads_toChoice_name (distinct : known.Nodup) (index : Nat) (here : known[index]? = some name)
    (next : f (index, none) = .ok x) :
    Reads id (fun value => toChoice known value >>= f) (· = .str name) n x := by
  rintro _ rfl -
  dsimp only [id, toChoice]
  rw [variantNamed_eq distinct here]
  exact next

end Choices

/-! ## Lists and what may be absent -/

/-- The value is a list whose items are as `each` says, one after the other. -/
def listShows (each : List (Json → Prop)) : Json → Prop
  | .arr values => List.Forall₂ (fun shows value => shows value) each values
  | _ => False

/-- The value is null if there is nothing to show. -/
def optionShows : Option (Json → Prop) → Json → Prop
  | none, value => value = .null
  | some shows, value => shows value

/-- A field that may be dropped if there is nothing to show. -/
def Field.option (name : String) (shown : Option (Json → Prop)) : Field :=
  ⟨name, optionShows shown, shown = none⟩

@[simp]
theorem Field.name_option (name : String) (shown : Option (Json → Prop)) :
    (Field.option name shown).name = name := rfl

section Lists

variable {α : Type} {shows : α → Json → Prop} {n : Nat}

/-- The items of a list are read one after the other. -/
theorem mapM_of_shown {V : Type} {g : Json → V} {f : V → Decoded α} {xs : List α} {values : List Json}
    (each : ∀ x ∈ xs, Reads g f (shows x) n x)
    (shown : List.Forall₂ (fun shows value => shows value) (xs.map shows) values)
    (shallow : itemsDepth values ≤ n) : (values.map g).mapM f = .ok xs := by
  rw [itemsDepth_le_iff] at shallow
  induction xs generalizing values with
  | nil =>
    cases shown
    rfl
  | cons x xs ih =>
    obtain - | @⟨_, value, _, values, head, tail⟩ := shown
    obtain ⟨here, later⟩ := List.forall_mem_cons.mp each
    obtain ⟨first, others⟩ := List.forall_mem_cons.mp shallow
    rw [List.map_cons, List.mapM_cons, here value head first, ih later tail others]
    rfl

/-- A list is read from every list of values that show its items. -/
theorem reads_toList {f : Json → Decoded α} {xs : List α} (each : ∀ x ∈ xs, Reads id f (shows x) n x) :
    Reads id (toList f) (listShows (xs.map shows)) n xs := by
  intro j shown shallow
  unfold listShows at shown
  split at shown
  · simpa [toList] using mapM_of_shown each shown (Nat.le_of_succ_le shallow)
  · exact shown.elim

/-- A list that is written to its end is read item by item. -/
theorem itemsOfDraft_eq (f : Draft → Decoded α) (items : List Draft) :
    itemsOfDraft f none items = items.mapM f := by
  induction items with
  | nil => rfl
  | cons item rest ih => rw [itemsOfDraft, ih, List.mapM_cons]

/-- A list is read from the draft of every such list. -/
theorem reads_listOfDraft {f : Draft → Decoded α} {xs : List α}
    (each : ∀ x ∈ xs, Reads Draft.ofJson f (shows x) n x) :
    Reads Draft.ofJson (listOfDraft f) (listShows (xs.map shows)) (n + 1) xs := by
  intro j shown shallow
  unfold listShows at shown
  split at shown
  · rw [Draft.ofJson, listOfDraft, Draft.ofItems_eq, itemsOfDraft_eq]
    exact mapM_of_shown each shown (Nat.le_of_succ_le_succ shallow)
  · exact shown.elim

/-- What may be absent is read from null or from what shows it, which is never null. -/
theorem reads_toOption {f : Json → Decoded α} {o : Option α} (present : ∀ x ∈ o, Reads id f (shows x) n x)
    (solid : ∀ x, ¬ shows x .null) : Reads id (toOption f) (optionShows (o.map shows)) n o := by
  intro j shown shallow
  cases o with
  | none =>
    cases shown
    rfl
  | some x =>
    have read : f j = .ok x := present x rfl j shown shallow
    have nonNull : j ≠ .null := by
      rintro rfl
      exact solid x shown
    rw [id, toOption, read]
    · rfl
    · exact nonNull

/-- Such a field may be dropped if there is nothing to show. -/
theorem takes_option {f : Json → Decoded α} {o : Option α} {name : String}
    (present : ∀ x ∈ o, Reads id f (shows x) n x) (solid : ∀ x, ¬ shows x .null) :
    (Record.optional name (toOption f)).Takes id n [.option name (o.map shows)] o :=
  Record.takes_fieldWith (reads_toOption present solid) fun absent =>
    congrArg some (Option.map_eq_none_iff.mp absent).symm

end Lists

end Minifier.Json
