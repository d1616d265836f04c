import Minifier.Options

/-!
# Settings in any order

Settings are kept in a map, whose entries come in no particular order, and are applied one after the
other until a name is met that no option has. As the names in a map are distinct, the order of the
known ones does not matter: each option ends up as its own entry says. The unknown ones do not
commute, since only the first of them is reported.
-/

namespace Minifier

/-- The entries of a map of settings, in some order. -/
structure ListsSettings (settings : List (String × Bool)) (map : String → Option Bool) : Prop where
  once : (settings.map Prod.fst).Nodup
  mem_iff : ∀ text on, (text, on) ∈ settings ↔ map text = some on

/-- A name in a map of settings that no option has. -/
def IsUnknown (map : String → Option Bool) (text : String) : Prop :=
  map text ≠ none ∧ ∀ name : OptionName, name.text ≠ text

/-! ## Names -/

namespace OptionName

theorem mem_all (name : OptionName) : name ∈ all := by
  cases name <;> decide

/-- No two options have one name. -/
theorem text_injective {name other : OptionName} (same : name.text = other.text) :
    name = other := by
  revert same
  cases name <;> cases other <;> decide

/-- No option is found by a text that is the name of none. -/
theorem ofText?_eq_none {text : String} :
    ofText? text = none ↔ ∀ name : OptionName, name.text ≠ text := by
  rw [ofText?, List.find?_eq_none]
  constructor
  · intro others name same
    exact others name (mem_all name) (beq_iff_eq.2 same)
  · intro others name _ same
    exact others name (beq_iff_eq.1 same)

theorem text_of_ofText? {text : String} {name : OptionName} (found : ofText? text = some name) :
    name.text = text := by
  unfold ofText? at found
  have same := List.find?_some found
  exact beq_iff_eq.1 same

/-- An option is found by its name. -/
theorem ofText?_eq_some {text : String} {name : OptionName} :
    ofText? text = some name ↔ name.text = text := by
  constructor
  · exact text_of_ofText?
  · intro same
    cases found : ofText? text with
    | none => exact absurd same (ofText?_eq_none.1 found name)
    | some other => rw [text_injective ((text_of_ofText? found).trans same.symm)]

end OptionName

/-! ## Applying settings -/

namespace Options

/-- Options that agree everywhere are the same. -/
theorem ext_get {o o' : Options} (same : ∀ name, o.get name = o'.get name) : o = o' := by
  cases o
  cases o'
  rw [Options.mk.injEq]
  exact ⟨same .sequences, same .properties, same .deadCode, same .dropDebugger, same .pristine,
    same .conditionals, same .comparisons, same .evaluate, same .warnings⟩

theorem get_all (on : Bool) (name : OptionName) : (all on).get name = on := by
  cases name <;> rfl

/-- Setting an option changes no other one. -/
theorem get_set (o : Options) (name other : OptionName) (on : Bool) :
    (o.set name on).get other = if other = name then on else o.get other := by
  cases name <;> cases other <;> rfl

/-- A known name is set, and the others after it. -/
theorem setAll_known (o : Options) {text : String} {name : OptionName} (known : name.text = text)
    (on : Bool) (rest : List (String × Bool)) :
    o.setAll ((text, on) :: rest) = (o.set name on).setAll rest := by
  rw [setAll, OptionName.ofText?_eq_some.2 known]

/-- At an unknown name setting ends, and the name is reported. -/
theorem setAll_unknown (o : Options) {text : String}
    (unknown : ∀ name : OptionName, name.text ≠ text) (on : Bool) (rest : List (String × Bool)) :
    o.setAll ((text, on) :: rest) = .error text := by
  rw [setAll, OptionName.ofText?_eq_none.2 unknown]

/-- If all names are known, each option is set as its entry says and the others are kept. -/
theorem setAll_eq_ok {settings : List (String × Bool)} (once : (settings.map Prod.fst).Nodup)
    (known : ∀ entry ∈ settings, ∃ name : OptionName, name.text = entry.1) (o : Options) :
    ∃ o', o.setAll settings = .ok o' ∧
      (∀ name on, (OptionName.text name, on) ∈ settings → o'.get name = on) ∧
      ∀ name, OptionName.text name ∉ settings.map Prod.fst → o'.get name = o.get name := by
  induction settings generalizing o with
  | nil => exact ⟨o, rfl, nofun, fun _ _ => rfl⟩
  | cons entry rest ih =>
    obtain ⟨text, on⟩ := entry
    obtain ⟨name, rfl⟩ := known _ List.mem_cons_self
    rw [List.map_cons, List.nodup_cons] at once
    have knownLater : ∀ entry ∈ rest, ∃ name : OptionName, name.text = entry.1 :=
      fun entry mem => known entry (.tail _ mem)
    obtain ⟨o', run, set, kept⟩ := ih once.2 knownLater (o.set name on)
    refine ⟨o', by rw [setAll_known o rfl, run], ?_, ?_⟩
    · intro other value mem
      rw [List.mem_cons, Prod.mk.injEq] at mem
      obtain ⟨same, rfl⟩ | mem := mem
      · -- The name does not come again, so nothing behind it changes the option.
        rw [OptionName.text_injective same, kept name once.1, get_set, if_pos rfl]
      · exact set other value mem
    · intro other absent
      rw [List.map_cons, List.mem_cons, not_or] at absent
      rw [kept other absent.2, get_set, if_neg fun same => absent.1 (congrArg _ same)]

/-- If some name is unknown, the run ends with the first such name. -/
theorem setAll_eq_error {settings : List (String × Bool)} {text : String} {on : Bool}
    (entry : (text, on) ∈ settings) (unknown : ∀ name : OptionName, name.text ≠ text)
    (o : Options) : ∃ before first value after, settings = before ++ (first, value) :: after ∧
      (∀ entry ∈ before, ∃ name : OptionName, name.text = entry.1) ∧
      (∀ name : OptionName, name.text ≠ first) ∧ o.setAll settings = .error first := by
  induction settings generalizing o with
  | nil => cases entry
  | cons head rest ih =>
    obtain ⟨first, value⟩ := head
    cases found : OptionName.ofText? first with
    | none =>
      have strange := OptionName.ofText?_eq_none.1 found
      exact ⟨[], first, value, rest, rfl, nofun, strange, setAll_unknown o strange value rest⟩
    | some name =>
      have known := OptionName.ofText?_eq_some.1 found
      have later : (text, on) ∈ rest := by
        obtain same | later := List.mem_cons.1 entry
        · rw [Prod.mk.injEq] at same
          exact absurd (known.trans same.1.symm) (unknown name)
        · exact later
      obtain ⟨before, first', value', after, rfl, others, strange, run⟩ :=
        ih later (o.set name value)
      refine ⟨(first, value) :: before, first', value', after, rfl, ?_, strange, ?_⟩
      · exact List.forall_mem_cons.2 ⟨⟨name, known⟩, others⟩
      · rw [setAll_known o known, run]

end Options

/-! ## Settings from a map -/

namespace ListsSettings

variable {map : String → Option Bool} {settings other : List (String × Bool)}

/-- Any arrangement of the entries lists the same map. -/
theorem perm (lists : ListsSettings settings map) (perm : settings.Perm other) :
    ListsSettings other map where
  once := (perm.map Prod.fst).nodup_iff.1 lists.once
  mem_iff text on := perm.mem_iff.symm.trans (lists.mem_iff text on)

/-- Entries with distinct names are those of the map that looks names up in them. -/
theorem lookup (once : (settings.map Prod.fst).Nodup) :
    ListsSettings settings fun text => settings.lookup text where
  once := once
  mem_iff text on := by
    rw [List.lookup_eq_some_iff]
    constructor
    · intro entry
      obtain ⟨before, after, rfl⟩ := List.append_of_mem entry
      refine ⟨before, after, rfl, fun earlier mem => bne_iff_ne.2 ?_⟩
      rintro rfl
      rw [List.map_append, List.map_cons, List.nodup_append] at once
      exact once.2.2 _ (List.mem_map_of_mem mem) _ List.mem_cons_self rfl
    · rintro ⟨before, after, rfl, -⟩
      exact List.mem_append_right _ List.mem_cons_self

/-- Every name of the map is in the list. -/
theorem exists_entry (lists : ListsSettings settings map) {text : String}
    (present : map text ≠ none) : ∃ on, (text, on) ∈ settings := by
  obtain ⟨on, entry⟩ := Option.ne_none_iff_exists'.1 present
  exact ⟨on, (lists.mem_iff text on).2 entry⟩

/-- The list has names of the map only. -/
theorem present (lists : ListsSettings settings map) {text : String} {on : Bool}
    (entry : (text, on) ∈ settings) : map text ≠ none := by
  rw [(lists.mem_iff text on).1 entry]
  nofun

/-- Without unknown names every order gives the options that the map says. -/
theorem ofSettings_eq_ok (lists : ListsSettings settings map)
    (known : ∀ text, ¬IsUnknown map text) (off : Bool) :
    ∃ o, Options.ofSettings settings off = .ok o ∧
      ∀ name, o.get name = (map (OptionName.text name)).getD !off := by
  have named : ∀ entry ∈ settings, ∃ name : OptionName, name.text = entry.1 := by
    rintro ⟨text, on⟩ entry
    cases found : OptionName.ofText? text with
    | none => exact absurd ⟨lists.present entry, OptionName.ofText?_eq_none.1 found⟩ (known text)
    | some name => exact ⟨name, OptionName.ofText?_eq_some.1 found⟩
  obtain ⟨o, run, set, kept⟩ := Options.setAll_eq_ok lists.once named (.all !off)
  refine ⟨o, run, fun name => ?_⟩
  cases value : map name.text with
  | some on => exact set name on ((lists.mem_iff _ on).2 value)
  | none =>
    rw [kept name, Options.get_all, Option.getD_none]
    intro mem
    obtain ⟨⟨text, on⟩, entry, same⟩ := List.mem_map.1 mem
    rw [← same] at value
    exact lists.present entry value

/-- With unknown names every order gives the one that it has first. -/
theorem ofSettings_eq_error (lists : ListsSettings settings map) {text : String}
    (unknown : IsUnknown map text) (off : Bool) :
    ∃ before first on after, settings = before ++ (first, on) :: after ∧
      (∀ entry ∈ before, ¬IsUnknown map entry.1) ∧ IsUnknown map first ∧
      Options.ofSettings settings off = .error first := by
  obtain ⟨on, entry⟩ := lists.exists_entry unknown.1
  obtain ⟨before, first, on', after, split, known, strange, run⟩ :=
    Options.setAll_eq_error entry unknown.2 (.all !off)
  have mem : (first, on') ∈ settings := by
    rw [split]
    exact List.mem_append_right _ List.mem_cons_self
  refine ⟨before, first, on', after, split, ?_, ⟨lists.present mem, strange⟩, run⟩
  intro entry earlier unknown
  obtain ⟨name, same⟩ := known entry earlier
  exact unknown.2 name same

/-- Each unknown name is the one that is given in some order. -/
theorem exists_order (lists : ListsSettings settings map) {text : String}
    (unknown : IsUnknown map text) (off : Bool) :
    ∃ order, ListsSettings order map ∧ Options.ofSettings order off = .error text := by
  obtain ⟨on, entry⟩ := lists.exists_entry unknown.1
  refine ⟨(text, on) :: settings.erase (text, on), ?_, ?_⟩
  · exact lists.perm (List.perm_cons_erase entry)
  · exact Options.setAll_unknown _ unknown.2 on _

end ListsSettings

open ListsSettings

/-- Without unknown names, the entries of a map of settings give the same options in every order:
each option is as its entry says, or as it is by default. With unknown names every order gives the
unknown name that it has first. So two orders agree if there is only one unknown name; if there are
several, each of them is given by some order. -/
theorem ofSettings_orders {map : String → Option Bool} {settings other : List (String × Bool)}
    (lists : ListsSettings settings map) (listsToo : ListsSettings other map) (off : Bool) :
    ((∀ text, ¬IsUnknown map text) → ∃ o, Options.ofSettings settings off = .ok o ∧
      Options.ofSettings other off = .ok o ∧
      ∀ name, o.get name = (map (OptionName.text name)).getD !off) ∧
    ((∃ text, IsUnknown map text) → ∃ before first on after,
      settings = before ++ (first, on) :: after ∧ (∀ entry ∈ before, ¬IsUnknown map entry.1) ∧
      IsUnknown map first ∧ Options.ofSettings settings off = .error first) ∧
    ((∀ text text', IsUnknown map text → IsUnknown map text' → text = text') →
      Options.ofSettings settings off = Options.ofSettings other off) ∧
    ∀ text, IsUnknown map text →
      ∃ order, ListsSettings order map ∧ Options.ofSettings order off = .error text := by
  have agree (known : ∀ text, ¬IsUnknown map text) : ∃ o, Options.ofSettings settings off = .ok o ∧
      Options.ofSettings other off = .ok o ∧
      ∀ name, o.get name = (map (OptionName.text name)).getD !off := by
    obtain ⟨o, run, get⟩ := lists.ofSettings_eq_ok known off
    obtain ⟨o', run', get'⟩ := listsToo.ofSettings_eq_ok known off
    have same : o' = o := Options.ext_get fun name => (get' name).trans (get name).symm
    exact ⟨o, run, same ▸ run', get⟩
  refine ⟨agree, ?_, ?_, ?_⟩
  · rintro ⟨text, unknown⟩
    exact lists.ofSettings_eq_error unknown off
  · intro single
    by_cases known : ∀ text, ¬IsUnknown map text
    · obtain ⟨o, run, run', -⟩ := agree known
      rw [run, run']
    · obtain ⟨text, unknown⟩ := Classical.not_forall_not.1 known
      obtain ⟨_, first, _, _, _, _, strange, run⟩ := lists.ofSettings_eq_error unknown off
      obtain ⟨_, first', _, _, _, _, strange', run'⟩ := listsToo.ofSettings_eq_error unknown off
      rw [run, run', single first first' strange strange']
  · intro text unknown
    exact lists.exists_order unknown off

/-- A known name and an unknown one: both orders give the unknown name. -/
theorem ofSettings_orders_single :
    ListsSettings [("evaluate", true), ("mangle", false)]
      (fun text => List.lookup text [("evaluate", true), ("mangle", false)]) ∧
    ListsSettings [("mangle", false), ("evaluate", true)]
      (fun text => List.lookup text [("evaluate", true), ("mangle", false)]) ∧
    Options.ofSettings [("evaluate", true), ("mangle", false)] true = .error "mangle" ∧
    Options.ofSettings [("mangle", false), ("evaluate", true)] true = .error "mangle" := by
  have lists : ListsSettings [("evaluate", true), ("mangle", false)]
      (fun text => List.lookup text [("evaluate", true), ("mangle", false)]) :=
    .lookup (by decide)
  have listsToo := lists.perm (.swap ("mangle", false) ("evaluate", true) [])
  have single (text : String) (unknown : IsUnknown
      (fun text => List.lookup text [("evaluate", true), ("mangle", false)]) text) :
      text = "mangle" := by
    obtain ⟨on, entry⟩ := lists.exists_entry unknown.1
    obtain same | entry := List.mem_cons.1 entry
    · exact absurd (Prod.mk.inj same).1.symm (unknown.2 .evaluate)
    · exact (Prod.mk.inj (List.mem_singleton.1 entry)).1
  have agree := (ofSettings_orders lists listsToo true).2.2.1 fun text text' unknown unknown' =>
    (single text unknown).trans (single text' unknown').symm
  exact ⟨lists, listsToo, rfl, agree ▸ rfl⟩

/-- Two unknown names: either order gives the name that it has first. -/
theorem ofSettings_orders_ne :
    ListsSettings [("mangle", true), ("inline", true)]
      (fun text => List.lookup text [("mangle", true), ("inline", true)]) ∧
    ListsSettings [("inline", true), ("mangle", true)]
      (fun text => List.lookup text [("mangle", true), ("inline", true)]) ∧
    Options.ofSettings [("mangle", true), ("inline", true)] false ≠
      Options.ofSettings [("inline", true), ("mangle", true)] false := by
  have lists : ListsSettings [("mangle", true), ("inline", true)]
      (fun text => List.lookup text [("mangle", true), ("inline", true)]) :=
    .lookup (by decide)
  refine ⟨lists, lists.perm (.swap ("inline", true) ("mangle", true) []), ?_⟩
  intro same
  rw [show Options.ofSettings [("mangle", true), ("inline", true)] false = .error "mangle" from rfl,
    show Options.ofSettings [("inline", true), ("mangle", true)] false = .error "inline" from rfl,
    Except.error.injEq] at same
  exact absurd same (by decide)

end Minifier
