import Mathlib.Data.List.DropRight
import Mathlib.Data.Prod.Lex
import Minifier.Span

/-!
# Line and column of a span

The place of a span is found by walking over the characters that begin before its start. What the
walk gives is counted off these characters: one line for each line break, and in the last line one
column for each character behind its break. Each character moves the place forward in lexicographic
order. A later start therefore never has an earlier place, and starts between different characters
have different places.
-/

namespace Minifier

/-- The byte at which the character with the given index begins. -/
def byteOffset (text : List Char) (i : Nat) : Nat :=
  (String.ofList (text.take i)).utf8ByteSize

/-- The characters that begin before the given byte. -/
def charsBefore (text : List Char) (limit : Nat) : List Char :=
  (text.zipIdx.filter fun indexed => byteOffset text indexed.2 < limit).map Prod.fst

/-- The place right behind a text: its line breaks and the characters behind the last of them are
counted. -/
def Position.behind (text : List Char) : Position :=
  ⟨1 + text.count '\n', 1 + (text.rtakeWhile (· != '\n')).length⟩

/-- Lines first, then columns. -/
def Position.lex (p : Position) : ℕ ×ₗ ℕ :=
  toLex (p.line, p.column)

/-- Whether the span starts between two characters of the text or at either end of it. -/
def Span.StartsBetween (s : Span) (source : String) : Prop :=
  String.Pos.Raw.IsValid source ⟨s.start.toNat⟩

/-! ## The characters before a byte -/

@[simp] theorem byteOffset_zero (text : List Char) : byteOffset text 0 = 0 := rfl

/-- A later character begins behind the bytes of the first one. -/
theorem byteOffset_cons_succ (c : Char) (text : List Char) (i : Nat) :
    byteOffset (c :: text) (i + 1) = c.utf8Size + byteOffset text i := by
  rw [byteOffset, List.take_succ_cons, String.ofList_cons, String.utf8ByteSize_append,
    String.utf8ByteSize_singleton, byteOffset]

@[simp] theorem charsBefore_nil (limit : Nat) : charsBefore [] limit = [] := rfl

@[simp] theorem charsBefore_zero (text : List Char) : charsBefore text 0 = [] := by
  simp [charsBefore]

/-- The characters of a text are left one by one, each taking its bytes off the limit. -/
theorem charsBefore_cons (c : Char) (text : List Char) {limit : Nat} (positive : 0 < limit) :
    charsBefore (c :: text) limit = c :: charsBefore text (limit - c.utf8Size) := by
  have later (indexed : Char × Nat) :
      decide (byteOffset (c :: text) (indexed.2 + 1) < limit) =
        decide (byteOffset text indexed.2 < limit - c.utf8Size) := by
    rw [byteOffset_cons_succ, decide_eq_decide]
    omega
  rw [charsBefore, List.zipIdx_cons', List.filter_cons_of_pos (by simp [positive]), List.map_cons,
    List.filter_map, List.map_map, charsBefore]
  congr 2
  exact List.filter_congr fun indexed _ => later indexed

/-- More characters begin before a later byte. -/
theorem charsBefore_mono (text : List Char) {m n : Nat} (le : m ≤ n) :
    charsBefore text m <+: charsBefore text n := by
  induction text generalizing m n with
  | nil => exact List.prefix_rfl
  | cons c text ih =>
    obtain rfl | positive := Nat.eq_zero_or_pos m
    · rw [charsBefore_zero]
      exact List.nil_prefix
    · rw [charsBefore_cons c text positive, charsBefore_cons c text (by omega)]
      exact (List.prefix_cons_inj c).2 (ih (by omega))

/-- No character begins at the end of the text or beyond. -/
theorem charsBefore_min (text : List Char) (limit : Nat) :
    charsBefore text (min limit (String.ofList text).utf8ByteSize) = charsBefore text limit := by
  induction text generalizing limit with
  | nil => rfl
  | cons c text ih =>
    rw [String.ofList_cons, String.utf8ByteSize_append, String.utf8ByteSize_singleton]
    have bytes := c.utf8Size_pos
    obtain rfl | positive := Nat.eq_zero_or_pos limit
    · rw [Nat.zero_min]
    · rw [charsBefore_cons c text positive, charsBefore_cons c text (by omega),
        ← ih (limit - c.utf8Size)]
      congr 2
      omega

/-- The characters before the end of a first part are those of that part. -/
theorem charsBefore_append (first second : List Char) :
    charsBefore (first ++ second) (String.ofList first).utf8ByteSize = first := by
  induction first with
  | nil => exact charsBefore_zero second
  | cons c first ih =>
    have bytes := c.utf8Size_pos
    rw [String.ofList_cons, String.utf8ByteSize_append, String.utf8ByteSize_singleton,
      List.cons_append, charsBefore_cons _ _ (by omega), Nat.add_sub_cancel_left, ih]

/-! ## The walk -/

/-- The walk goes over the characters that begin before the limit. -/
theorem Span.walk_eq_foldl (limit offset : Nat) (p : Position) (text : List Char) :
    walk limit offset p text = (charsBefore text (limit - offset)).foldl Position.advance p := by
  induction text generalizing offset p with
  | nil => rfl
  | cons c text ih =>
    rw [walk]
    split
    · next more =>
      rw [ih, charsBefore_cons c text (by omega), List.foldl_cons, Nat.sub_add_eq]
    · next done =>
      rw [Nat.sub_eq_zero_of_le (by omega), charsBefore_zero]
      rfl

namespace Position

/-- The place behind one more character is a step further. -/
theorem behind_concat (text : List Char) (c : Char) :
    behind (text ++ [c]) = (behind text).advance c := by
  rw [behind, advance, behind, List.count_append, List.rtakeWhile_concat]
  by_cases break_ : c = '\n'
  · subst break_
    rfl
  · simp [break_, Nat.add_assoc]

/-- The place behind a text is reached from the first place by its characters. -/
theorem foldl_advance (text : List Char) : text.foldl advance ⟨1, 1⟩ = behind text := by
  induction text using List.reverseRecOn with
  | nil => rfl
  | append_singleton text c ih => rw [List.foldl_concat, ih, behind_concat]

/-- Each character moves the place forward. -/
theorem lex_lt_advance (p : Position) (c : Char) : p.lex < (p.advance c).lex := by
  rw [lex, lex, Prod.Lex.toLex_lt_toLex, advance]
  split
  · exact .inl (Nat.lt_succ_self _)
  · exact .inr ⟨rfl, Nat.lt_succ_self _⟩

/-- A text does not move the place back. -/
theorem lex_le_foldl (p : Position) (text : List Char) : p.lex ≤ (text.foldl advance p).lex := by
  induction text generalizing p with
  | nil => exact le_rfl
  | cons c text ih => exact (lex_lt_advance p c).le.trans (ih (p.advance c))

/-- The place behind a longer text is not earlier. -/
theorem lex_behind_le {text longer : List Char} (pre : text <+: longer) :
    (behind text).lex ≤ (behind longer).lex := by
  obtain ⟨rest, rfl⟩ := pre
  rw [← foldl_advance, ← foldl_advance, List.foldl_append]
  exact lex_le_foldl _ rest

/-- Only the text itself ends at the place where one of its beginnings ends. -/
theorem eq_of_behind_eq {text longer : List Char} (pre : text <+: longer)
    (same : behind text = behind longer) : text = longer := by
  obtain ⟨rest, rfl⟩ := pre
  cases rest with
  | nil => rw [List.append_nil]
  | cons c rest =>
    rw [← foldl_advance, ← foldl_advance, List.foldl_append, List.foldl_cons] at same
    have forward := (lex_lt_advance (text.foldl advance ⟨1, 1⟩) c).trans_le (lex_le_foldl _ rest)
    rw [← same] at forward
    exact absurd forward (lt_irrefl _)

end Position

/-! ## The place of a span -/

namespace Span

variable (s t : Span) (source : String)

/-- The place of a span is right behind the characters that begin before its start. -/
theorem position_eq_behind :
    s.position source = .behind (charsBefore source.toList s.start.toNat) := by
  rw [position, walk_eq_foldl, Nat.sub_zero, Position.foldl_advance]

/-- A span that starts later has no earlier place. -/
theorem lex_position_le (le : s.start ≤ t.start) :
    (s.position source).lex ≤ (t.position source).lex := by
  rw [position_eq_behind, position_eq_behind]
  exact Position.lex_behind_le (charsBefore_mono _ (UInt64.le_iff_toNat_le.1 le))

variable {s t source}

/-- A start between characters is told by the characters before it. -/
theorem StartsBetween.start_eq (between : s.StartsBetween source) :
    s.start.toNat = (String.ofList (charsBefore source.toList s.start.toNat)).utf8ByteSize := by
  obtain ⟨first, second, rfl, offset⟩ := String.Pos.Raw.isValid_iff_exists_append.1 between
  have start : s.start.toNat = first.utf8ByteSize := congrArg String.Pos.Raw.byteIdx offset
  have before := charsBefore_append first.toList second.toList
  rw [String.ofList_toList] at before
  rw [start, String.toList_append, before, String.ofList_toList]

/-- Of two starts between characters with one place, the later one is not later. -/
theorem StartsBetween.start_inj_of_le (between : s.StartsBetween source)
    (betweenToo : t.StartsBetween source) (le : s.start ≤ t.start)
    (same : s.position source = t.position source) : s.start = t.start := by
  rw [position_eq_behind, position_eq_behind] at same
  have chars := Position.eq_of_behind_eq (charsBefore_mono _ (UInt64.le_iff_toNat_le.1 le)) same
  apply UInt64.toNat_inj.1
  rw [between.start_eq, chars, ← betweenToo.start_eq]

/-- Starts between different characters have different places. -/
theorem StartsBetween.start_inj (between : s.StartsBetween source)
    (betweenToo : t.StartsBetween source) (same : s.position source = t.position source) :
    s.start = t.start := by
  obtain le | le := Nat.le_total s.start.toNat t.start.toNat
  · exact between.start_inj_of_le betweenToo (UInt64.le_iff_toNat_le.2 le) same
  · exact (betweenToo.start_inj_of_le between (UInt64.le_iff_toNat_le.2 le) same.symm).symm

end Span

/-- The line of a span is one more than the line breaks among the characters that begin before its
start, its column one more than the characters behind the last of these breaks. A later start never
has an earlier place, and different starts between characters have different places. -/
theorem position_counts (s t : Span) (source : String) :
    ((s.position source).line =
        1 + (charsBefore source.toList (min s.start.toNat source.utf8ByteSize)).count '\n' ∧
      (s.position source).column =
        1 + ((charsBefore source.toList (min s.start.toNat source.utf8ByteSize)).rtakeWhile
          (· != '\n')).length) ∧
    (s.start ≤ t.start → (s.position source).lex ≤ (t.position source).lex) ∧
    (s.StartsBetween source → t.StartsBetween source → s.start ≠ t.start →
      s.position source ≠ t.position source) := by
  have clipped := charsBefore_min source.toList s.start.toNat
  rw [String.ofList_toList] at clipped
  refine ⟨?_, s.lex_position_le t source, ?_⟩
  · rw [clipped, Span.position_eq_behind]
    exact ⟨rfl, rfl⟩
  · intro between betweenToo different same
    exact different (between.start_inj betweenToo same)

/-- Starts in front of and behind a character of four bytes, in the second line. -/
theorem position_counts_wide :
    (Span.mk 3 3).StartsBetween "é\n😀x" ∧ (Span.mk 7 8).StartsBetween "é\n😀x" ∧
    (Span.mk 3 3).position "é\n😀x" ≠ (Span.mk 7 8).position "é\n😀x" := by
  have front : (Span.mk 3 3).StartsBetween "é\n😀x" :=
    String.Pos.Raw.isValid_iff_exists_append.2 ⟨"é\n", "😀x", rfl, rfl⟩
  have back : (Span.mk 7 8).StartsBetween "é\n😀x" :=
    String.Pos.Raw.isValid_iff_exists_append.2 ⟨"é\n😀", "x", rfl, rfl⟩
  exact ⟨front, back, (position_counts _ _ _).2.2 front back (by decide)⟩

-- A start inside a character has the place behind that character.
example : (Span.mk 4 4).position "é\n😀x" = ⟨2, 2⟩ := by decide

end Minifier
