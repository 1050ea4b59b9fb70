import Mathlib.Data.String.Basic
import ParamClass.Text.Cut
import ParamClass.Text.Space

/-!
# Offsets in bytes

A place in a text may be given by the number of bytes before it, in UTF-8. Not every number is such
an offset: it may lie past the end of the text or inside a character. `splitBytes?` cuts a text at an
offset and fails where there is none (`splitBytes?_eq_some_iff`, `isSome_splitBytes?_iff`).
-/

namespace ParamClass.Text

/-- The parts of a text before and after its first `n` bytes. There are none when the text has fewer
bytes or when the cut would go through a character. -/
def splitBytes? : Nat → List Char → Option (List Char × List Char)
  | 0, s => some ([], s)
  | _ + 1, [] => none
  | n + 1, c :: s =>
    if c.utf8Size ≤ n + 1 then
      (splitBytes? (n + 1 - c.utf8Size) s).map fun (before, after) => (c :: before, after)
    else none

/-- A number of bytes is an offset of a text: not past its end and not inside a character. -/
def IsOffset (s : List Char) (n : Nat) : Prop := String.Pos.Raw.IsValid (.ofList s) ⟨n⟩

/-- The number of bytes before the first place where `mark` stands. -/
def indexOf? (mark s : List Char) : Option Nat :=
  (cut? mark s).map fun (before, _) => String.utf8Len before

/-- The bytes of a text. -/
def utf8 (s : List Char) : List UInt8 := s.flatMap String.utf8EncodeChar

/-- The byte of a space between tokens. -/
def isSpaceByte (b : UInt8) : Bool :=
  b == 0x20 || b == 0x09 || b == 0x0D || b == 0x0A

/-! ## Cuts -/

/-- A text is cut after `n` bytes into two parts exactly when it is these parts and the first one has
`n` bytes. -/
theorem splitBytes?_eq_some_iff {n : Nat} {s before after : List Char} :
    splitBytes? n s = some (before, after) ↔ s = before ++ after ∧ String.utf8Len before = n := by
  fun_induction splitBytes? n s generalizing before with
  | case1 s =>
    rw [Option.some.injEq, Prod.mk.injEq, String.utf8Len_eq_zero]
    constructor
    · rintro ⟨rfl, rfl⟩
      exact ⟨rfl, rfl⟩
    · rintro ⟨rfl, rfl⟩
      exact ⟨rfl, rfl⟩
  | case2 n =>
    refine iff_of_false (by simp) ?_
    rintro ⟨hnil, hlen⟩
    obtain ⟨rfl, rfl⟩ := List.append_eq_nil_iff.1 hnil.symm
    simp at hlen
  | case3 n c s hc ih =>
    rw [Option.map_eq_some_iff]
    constructor
    · rintro ⟨⟨b, a⟩, hsplit, heq⟩
      obtain ⟨rfl, rfl⟩ := Prod.mk.inj heq
      obtain ⟨rfl, hlen⟩ := ih.1 hsplit
      rw [String.utf8Len_cons]
      exact ⟨rfl, by omega⟩
    · rintro ⟨heq, hlen⟩
      rcases before with _ | ⟨d, before⟩
      · simp at hlen
      · obtain ⟨rfl, rfl⟩ := List.cons.inj heq
        rw [String.utf8Len_cons] at hlen
        exact ⟨(before, after), ih.2 ⟨rfl, by omega⟩, rfl⟩
  | case4 n c s hc =>
    refine iff_of_false (by simp) ?_
    rintro ⟨heq, hlen⟩
    rcases before with _ | ⟨d, before⟩
    · simp at hlen
    · obtain ⟨rfl, rfl⟩ := List.cons.inj heq
      rw [String.utf8Len_cons] at hlen
      omega

/-- A text can be cut at its offsets only. -/
theorem isSome_splitBytes?_iff {n : Nat} {s : List Char} :
    (splitBytes? n s).isSome = true ↔ IsOffset s n := by
  rw [IsOffset, Option.isSome_iff_exists, String.Pos.Raw.isValid_iff_exists_append]
  constructor
  · rintro ⟨⟨before, after⟩, h⟩
    obtain ⟨rfl, rfl⟩ := splitBytes?_eq_some_iff.1 h
    refine ⟨.ofList before, .ofList after, String.ofList_append, ?_⟩
    rw [← String.utf8ByteSize_ofList]
    rfl
  · rintro ⟨before, after, heq, hpos⟩
    refine ⟨(before.toList, after.toList), splitBytes?_eq_some_iff.2 ⟨?_, ?_⟩⟩
    · rw [← String.toList_append, ← heq, String.toList_ofList]
    · rw [← String.utf8ByteSize_ofList, String.ofList_toList]
      exact (congrArg String.Pos.Raw.byteIdx hpos).symm

/-! ## Spaces as bytes -/

/-- A character other than a space does not start with the byte of a space. -/
theorem exists_utf8EncodeChar {c : Char} (h : isSpace c = false) :
    ∃ b bs, String.utf8EncodeChar c = b :: bs ∧ isSpaceByte b = false := by
  have hhigh : ∀ n < 256, 128 ≤ n → isSpaceByte (UInt8.ofNat n) = false := by
    decide +kernel
  rw [String.utf8EncodeChar]
  split
  · next hascii =>
    have hlow : ∀ n ≤ 127, isSpaceByte (UInt8.ofNat n) = isSpace (Char.ofNat n) := by
      decide +kernel
    have hself := hlow c.val.toNat hascii
    rw [show Char.ofNat c.val.toNat = c from Char.ofNat_toNat c, h] at hself
    exact ⟨_, [], rfl, hself⟩
  · split
    · exact ⟨_, _, rfl, hhigh _ (by omega) (by omega)⟩
    · split
      · exact ⟨_, _, rfl, hhigh _ (by omega) (by omega)⟩
      · exact ⟨_, _, rfl, hhigh _ (by omega) (by omega)⟩

/-- A space is one byte. -/
theorem utf8EncodeChar_of_isSpace {c : Char} (h : isSpace c = true) :
    ∃ b, String.utf8EncodeChar c = [b] ∧ isSpaceByte b = true ∧ c.utf8Size = 1 := by
  unfold isSpace at h
  simp only [Bool.or_eq_true, beq_iff_eq] at h
  rcases h with ((rfl | rfl) | rfl) | rfl <;> exact ⟨_, rfl, rfl, rfl⟩

/-- The leading spaces of a text have as many bytes as it has leading bytes of spaces. -/
theorem length_takeWhile_isSpaceByte (s : List Char) :
    ((utf8 s).takeWhile isSpaceByte).length = String.utf8Len (s.takeWhile isSpace) := by
  induction s with
  | nil => rfl
  | cons c s ih =>
    rw [utf8, List.flatMap_cons]
    by_cases hc : isSpace c = true
    · obtain ⟨b, hbytes, hb, hsize⟩ := utf8EncodeChar_of_isSpace hc
      rw [hbytes, List.singleton_append, List.takeWhile_cons_of_pos hb, List.length_cons,
        List.takeWhile_cons_of_pos hc, String.utf8Len_cons, hsize, ← ih]
      rfl
    · rw [Bool.not_eq_true] at hc
      obtain ⟨b, bs, hbytes, hb⟩ := exists_utf8EncodeChar hc
      rw [hbytes, List.cons_append, List.takeWhile_cons_of_neg (by simp [hb]),
        List.takeWhile_cons_of_neg (by simp [hc])]
      rfl

end ParamClass.Text
