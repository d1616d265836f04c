import Minifier.Constant.Fold

/-!
# Strings are totally ordered

Strings are equal if their characters are, but which of two is less depends on their UTF-16 code
units. The two fit together because code units can be read back: no two strings have the same ones.
All six relations between strings are therefore decided by one total order, the lexicographic order
of the code units.
-/

namespace Minifier

namespace Text

/-! ## Reading code units -/

/-- Whether a code unit stands for a character by itself. -/
def IsScalarUnit (unit : Nat) : Prop :=
  unit < 0xd800 ∨ 0xe000 ≤ unit ∧ unit < 0x10000

/-- Whether two code units are a high and a low surrogate. -/
def IsSurrogatePair (high low : Nat) : Prop :=
  (0xd800 ≤ high ∧ high < 0xdc00) ∧ 0xdc00 ≤ low ∧ low < 0xe000

instance (unit : Nat) : Decidable (IsScalarUnit unit) :=
  inferInstanceAs (Decidable (_ ∨ _))

instance (high low : Nat) : Decidable (IsSurrogatePair high low) :=
  inferInstanceAs (Decidable (_ ∧ _))

/-- The text that a list of code units encodes in UTF-16. A surrogate that is not part of a pair
encodes nothing. -/
def ofUnits? : List Nat → Option (List Char)
  | [] => some []
  | [unit] => if IsScalarUnit unit then some [Char.ofNat unit] else none
  | unit :: next :: rest =>
    if IsScalarUnit unit then (ofUnits? (next :: rest)).map (Char.ofNat unit :: ·)
    else if IsSurrogatePair unit next then
      (ofUnits? rest).map (Char.ofNat (0x10000 + 0x400 * (unit - 0xd800) + (next - 0xdc00)) :: ·)
    else none

theorem ofUnits_scalar {unit : Nat} (scalar : IsScalarUnit unit) (rest : List Nat) :
    ofUnits? (unit :: rest) = (ofUnits? rest).map (Char.ofNat unit :: ·) := by
  cases rest with
  | nil => simp [ofUnits?, scalar]
  | cons next rest => rw [ofUnits?, if_pos scalar]

theorem ofUnits_pair {high low : Nat} (pair : IsSurrogatePair high low) (rest : List Nat) :
    ofUnits? (high :: low :: rest) = (ofUnits? rest).map
      (Char.ofNat (0x10000 + 0x400 * (high - 0xd800) + (low - 0xdc00)) :: ·) := by
  have surrogate : ¬IsScalarUnit high := by
    unfold IsScalarUnit IsSurrogatePair at *
    omega
  rw [ofUnits?, if_neg surrogate, if_pos pair]

/-- Code points are not surrogates, and there are seventeen planes of them. -/
theorem toNat_bounds (c : Char) :
    c.toNat < 0xd800 ∨ 0xdfff < c.toNat ∧ c.toNat < 0x110000 :=
  c.valid

/-- The units of a character are read as that character, whatever is behind them. -/
theorem ofUnits_unitsOfChar_append (c : Char) (rest : List Nat) :
    ofUnits? (unitsOfChar c ++ rest) = (ofUnits? rest).map (c :: ·) := by
  have bounds := toNat_bounds c
  unfold unitsOfChar
  split
  · next basic =>
    have scalar : IsScalarUnit c.toNat := by
      unfold IsScalarUnit
      omega
    rw [List.singleton_append, ofUnits_scalar scalar, Char.ofNat_toNat]
  · next beyond =>
    have pair : IsSurrogatePair (0xd800 + (c.toNat - 0x10000) / 0x400)
        (0xdc00 + (c.toNat - 0x10000) % 0x400) := by
      unfold IsSurrogatePair
      omega
    have point : 0x10000 + 0x400 * (0xd800 + (c.toNat - 0x10000) / 0x400 - 0xd800) +
        (0xdc00 + (c.toNat - 0x10000) % 0x400 - 0xdc00) = c.toNat := by
      omega
    rw [List.cons_append, List.singleton_append, ofUnits_pair pair, point, Char.ofNat_toNat]

/-- What the units of a text encode is that text. -/
theorem ofUnits_units (text : List Char) : ofUnits? (units text) = some text := by
  induction text with
  | nil => rfl
  | cons c text ih =>
    rw [units, List.flatMap_cons, ofUnits_unitsOfChar_append]
    change (ofUnits? (units text)).map _ = _
    rw [ih, Option.map_some]

theorem units_injective {s t : List Char} (same : units s = units t) : s = t := by
  have read := ofUnits_units s
  rw [same, ofUnits_units t] at read
  exact (Option.some.inj read).symm

/-! ## The order of code units -/

/-- The comparison gives the lexicographic order of lists. -/
theorem lexOrder_eq_lt (as bs : List Nat) : lexOrder as bs = .lt ↔ as < bs := by
  fun_induction lexOrder as bs with
  | case1 => simp
  | case2 b bs => simp
  | case3 a as => simp
  | case4 a as b bs ih =>
    rw [Ordering.then_eq_lt, ih, List.cons_lt_cons_iff, Nat.compare_eq_lt, Nat.compare_eq_eq]

theorem swap_lexOrder (as bs : List Nat) : (lexOrder as bs).swap = lexOrder bs as := by
  fun_induction lexOrder as bs with
  | case1 | case2 | case3 => rfl
  | case4 a as b bs ih => rw [lexOrder, Ordering.swap_then, Nat.compare_swap, ih]

theorem lexOrder_eq_gt (as bs : List Nat) : lexOrder as bs = .gt ↔ bs < as := by
  rw [← swap_lexOrder, Ordering.swap_eq_gt, lexOrder_eq_lt]

/-- Neither of two lists is below the other only if they are equal. -/
theorem lexOrder_eq_eq (as bs : List Nat) : lexOrder as bs = .eq ↔ as = bs := by
  constructor
  · intro same
    have notBelow : ¬as < bs := by simp [← lexOrder_eq_lt, same]
    have notAbove : ¬bs < as := by simp [← lexOrder_eq_gt, same]
    exact List.le_antisymm (List.not_lt.mp notAbove) (List.not_lt.mp notBelow)
  · rintro rfl
    have notBelow : lexOrder as as ≠ .lt := by simp [lexOrder_eq_lt]
    have notAbove : lexOrder as as ≠ .gt := by simp [lexOrder_eq_gt]
    cases order : lexOrder as as <;> simp_all

variable (a b : String)

/-- Whether a string comes before another: its code units do. -/
def unitsBelow : Bool :=
  decide (units a.toList < units b.toList)

theorem unitOrder_beq_lt : (unitOrder a b == .lt) = unitsBelow a b := by
  rw [unitOrder, unitsBelow, Bool.eq_iff_iff, beq_iff_eq, lexOrder_eq_lt, decide_eq_true_iff]

theorem unitOrder_beq_gt : (unitOrder a b == .gt) = unitsBelow b a := by
  rw [unitOrder, unitsBelow, Bool.eq_iff_iff, beq_iff_eq, lexOrder_eq_gt, decide_eq_true_iff]

/-- Only equal strings are at the same place of the order. -/
theorem unitOrder_eq_eq : unitOrder a b = .eq ↔ a = b := by
  rw [unitOrder, lexOrder_eq_eq]
  constructor
  · intro same
    exact String.toList_injective (units_injective same)
  · rintro rfl
    rfl

/-- Of two strings the first comes before, is the same or comes after. -/
theorem unitsBelow_trichotomy :
    (unitsBelow a b).toNat + (a == b).toNat + (unitsBelow b a).toNat = 1 := by
  have same : (a == b) = (unitOrder a b == .eq) := by
    rw [Bool.eq_iff_iff, beq_iff_eq, beq_iff_eq, unitOrder_eq_eq]
  rw [← unitOrder_beq_lt, ← unitOrder_beq_gt, same]
  cases unitOrder a b <;> rfl

theorem unitsBelow_trans {a b c : String} (first : unitsBelow a b = true)
    (second : unitsBelow b c = true) : unitsBelow a c = true := by
  unfold unitsBelow at *
  rw [decide_eq_true_iff] at *
  exact List.lt_trans first second

end Text

open Text

/-- The relations between strings are those of one total order: the lexicographic order of their
UTF-16 code units. -/
theorem strings_totally_ordered (a b c : String) :
    (Operator.less.fold? (.str a) (.str b) = some (.bool (unitsBelow a b)) ∧
      Operator.strictEqual.fold? (.str a) (.str b) = some (.bool (a == b)) ∧
      Operator.greater.fold? (.str a) (.str b) = some (.bool (unitsBelow b a)) ∧
      (unitsBelow a b).toNat + (a == b).toNat + (unitsBelow b a).toNat = 1) ∧
    (Operator.equal.fold? (.str a) (.str b) = Operator.strictEqual.fold? (.str a) (.str b) ∧
      Operator.lessEq.fold? (.str a) (.str b) = some (.bool !(unitsBelow b a)) ∧
      Operator.greaterEq.fold? (.str a) (.str b) = some (.bool !(unitsBelow a b)) ∧
      Operator.less.fold? (.str a) (.str b) = Operator.greater.fold? (.str b) (.str a)) ∧
    (unitsBelow a b = true → unitsBelow b c = true → unitsBelow a c = true) ∧
    (unitsBelow a b = true ↔ units a.toList < units b.toList) ∧
    ofUnits? (units a.toList) = some a.toList := by
  have less (a b : String) :
      Operator.less.fold? (.str a) (.str b) = some (.bool (unitsBelow a b)) := by
    rw [← unitOrder_beq_lt]
    rfl
  have greater (a b : String) :
      Operator.greater.fold? (.str a) (.str b) = some (.bool (unitsBelow b a)) := by
    rw [← unitOrder_beq_gt]
    rfl
  refine ⟨⟨less a b, rfl, greater a b, unitsBelow_trichotomy a b⟩, ⟨rfl, ?_, ?_, ?_⟩,
    unitsBelow_trans, ?_, ofUnits_units _⟩
  · rw [← unitOrder_beq_gt]
    rfl
  · rw [← unitOrder_beq_lt]
    rfl
  · rw [less a b, greater b a]
  · rw [unitsBelow, decide_eq_true_iff]

-- A character beyond the basic plane comes before the last ones of that plane.
example : unitsBelow "😀" "\uff61" = true ∧ "\uff61" < "😀" := by decide

end Minifier
