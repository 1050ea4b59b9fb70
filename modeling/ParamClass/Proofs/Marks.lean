import Mathlib.Data.List.Infix
import ParamClass.Text.Cut

/-!
# First places of marks

A longest run of a class of characters ends where the class ends (`takeWhile_dropWhile_eq_iff`). A
cut is made at the first place of its mark. `cut?_eq_some_iff` says so without a search: the mark
occurs nowhere in the part before it, not even when all of the mark but its last character is put
behind that part. For a mark whose last character does not occur earlier in it, such as `?>`, the
addition makes no difference (`cut?_eq_some_iff_of_last`). For `--` it does: the part before the
mark may then not end in a hyphen either.
-/

namespace ParamClass.Text

/-! ## Longest runs -/

/-- The text does not start with a character of the class. -/
def Stops (p : Char → Bool) (s : List Char) : Prop := ∀ c ∈ s.head?, p c = false

/-- A text stops a class when its first character does. -/
theorem stops_cons {p : Char → Bool} {c : Char} {s : List Char} : Stops p (c :: s) ↔ p c = false := by
  simp [Stops]

/-- The empty text stops every class. -/
theorem stops_nil {p : Char → Bool} : Stops p [] := by
  simp [Stops]

/-- In front of a text that stops a class, a text stops it when it is empty or does so itself. -/
theorem stops_append {p : Char → Bool} {s rest : List Char} (hrest : Stops p rest) :
    Stops p (s ++ rest) ↔ Stops p s := by
  rcases s with _ | ⟨c, s⟩
  · exact iff_of_true hrest stops_nil
  · rw [List.cons_append, stops_cons, stops_cons]

/-- The longest run of a class at the front of a text, and what follows it: the run has characters of
the class only, and what follows it starts with another one. -/
theorem takeWhile_dropWhile_eq_iff {p : Char → Bool} {s run rest : List Char} :
    s.takeWhile p = run ∧ s.dropWhile p = rest ↔
      s = run ++ rest ∧ (∀ c ∈ run, p c = true) ∧ Stops p rest := by
  constructor
  · rintro ⟨rfl, rfl⟩
    refine ⟨List.takeWhile_append_dropWhile.symm, List.all_eq_true.1 List.all_takeWhile, ?_⟩
    intro c hc
    have := List.head?_dropWhile_not p s
    rw [Option.mem_def.1 hc] at this
    simpa using this
  · rintro ⟨rfl, hrun, hrest⟩
    have h0 : rest.takeWhile p = [] ∧ rest.dropWhile p = rest := by
      rcases rest with _ | ⟨c, rest⟩
      · exact ⟨rfl, rfl⟩
      · rw [stops_cons] at hrest
        simp [hrest]
    rw [List.takeWhile_append_of_pos hrun, List.dropWhile_append_of_pos hrun, h0.1, h0.2,
      List.append_nil]
    exact ⟨rfl, rfl⟩

/-! ## Marks -/

/-- What follows a mark is found behind it. -/
theorem after?_append (mark rest : List Char) : after? mark (mark ++ rest) = some rest :=
  after?_eq_some.2 rfl

/-- There is nothing after a mark exactly when the text does not start with it. -/
theorem after?_eq_none_iff {mark s : List Char} : after? mark s = none ↔ ¬ mark <+: s := by
  rw [Option.eq_none_iff_forall_ne_some]
  constructor
  · rintro h ⟨rest, rfl⟩
    exact h rest (after?_append mark rest)
  · intro h rest hr
    exact h ⟨rest, (after?_eq_some.1 hr).symm⟩

/-- A mark in front of a text is found in the part before the text already, if that is as long. -/
theorem after?_append_eq_none {mark s : List Char} (h : ¬ mark <+: s)
    (hlen : mark.length ≤ s.length) (rest : List Char) : after? mark (s ++ rest) = none := by
  rw [after?_eq_none_iff, List.isPrefix_append_of_length hlen]
  exact h

/-- A cut finds the mark that ends the part before it, when the mark does not start earlier. -/
theorem cut?_append {mark before : List Char} (h : ¬ mark <:+: before ++ mark.dropLast)
    (rest : List Char) : cut? mark (before ++ mark ++ rest) = some (before, rest) := by
  induction before with
  | nil =>
    rcases mark with _ | ⟨m, ms⟩
    · exact absurd List.nil_infix h
    · rw [List.nil_append, List.cons_append, cut?, ← List.cons_append, after?_append]
  | cons c b ih =>
    have hlen : mark.length ≤ (c :: b ++ mark).length := by
      rw [List.length_append]
      omega
    have hne : mark ≠ [] := by
      rintro rfl
      exact h List.nil_infix
    -- Put the last character of the mark aside, so that the mark would have to fit without it.
    have hpre : ¬ mark <+: c :: b ++ mark := by
      intro hp
      have hsplit : c :: b ++ mark = c :: b ++ mark.dropLast ++ [mark.getLast hne] := by
        rw [List.append_assoc, List.dropLast_append_getLast]
      have hfit : mark.length ≤ (c :: b ++ mark.dropLast).length := by
        rw [List.length_append, List.length_dropLast, List.length_cons]
        omega
      rw [hsplit, List.isPrefix_append_of_length hfit] at hp
      exact h hp.isInfix
    have hb : ¬ mark <:+: b ++ mark.dropLast := fun hi => h (List.infix_cons hi)
    have hnone : after? mark (c :: (b ++ mark ++ rest)) = none := after?_append_eq_none hpre hlen rest
    rw [List.cons_append, List.cons_append, cut?, hnone, ih hb]
    rfl

/-- The part before a cut holds no mark, nor does it when the mark behind it lacks one character. -/
theorem not_infix_of_cut? {mark s before rest : List Char} (hne : mark ≠ [])
    (h : cut? mark s = some (before, rest)) : ¬ mark <:+: before ++ mark.dropLast := by
  have hshort : ¬ mark <:+: mark.dropLast := by
    intro hi
    have hlen := hi.length_le
    have hpos := List.length_pos_iff.2 hne
    rw [List.length_dropLast] at hlen
    omega
  induction s generalizing before with
  | nil =>
    obtain ⟨r, -, heq⟩ := Option.map_eq_some_iff.1 h
    obtain ⟨rfl, rfl⟩ := Prod.mk.inj heq
    exact hshort
  | cons c s ih =>
    rw [cut?] at h
    split at h
    · obtain ⟨rfl, rfl⟩ := Prod.mk.inj (Option.some.inj h)
      exact hshort
    · next hnone =>
      obtain ⟨⟨b, r⟩, hc, heq⟩ := Option.map_eq_some_iff.1 h
      obtain ⟨rfl, rfl⟩ := Prod.mk.inj heq
      rw [List.cons_append, List.infix_cons_iff]
      rintro (hp | hi)
      · apply after?_eq_none_iff.1 hnone
        have htake : c :: (b ++ mark.dropLast) <+: c :: s := by
          rw [cut?_eq_some hc, List.append_assoc, List.prefix_cons_inj, List.prefix_append_right_inj]
          exact (List.dropLast_prefix mark).trans (List.prefix_append mark r)
        exact hp.trans htake
      · exact ih hc hi

/-- A text is cut at a mark exactly when it is the two parts with the mark between them and the
mark starts nowhere earlier. -/
theorem cut?_eq_some_iff {mark s before rest : List Char} (hne : mark ≠ []) :
    cut? mark s = some (before, rest) ↔
      s = before ++ mark ++ rest ∧ ¬ mark <:+: before ++ mark.dropLast := by
  constructor
  · intro h
    exact ⟨cut?_eq_some h, not_infix_of_cut? hne h⟩
  · rintro ⟨rfl, h⟩
    exact cut?_append h rest

/-- A mark that ends in a character that `t` lacks does not reach into `t`. -/
theorem infix_append_iff_of_last {mark t : List Char} (hne : mark ≠ [])
    (hlast : mark.getLast hne ∉ t) (b : List Char) : mark <:+: b ++ t ↔ mark <:+: b := by
  induction t using List.reverseRecOn with
  | nil => rw [List.append_nil]
  | append_singleton t x ih =>
    rw [List.mem_append, List.mem_singleton, not_or] at hlast
    rw [← List.append_assoc, List.infix_concat_iff, ih hlast.1, or_iff_right]
    intro hs
    apply hlast.2
    have := hs.getLast hne
    rw [List.getLast_concat] at this
    exact this

/-- A text is cut at a mark whose last character occurs in it once exactly when it is the two parts
with the mark between them and the first part lacks the mark. -/
theorem cut?_eq_some_iff_of_last {mark s before rest : List Char} (hne : mark ≠ [])
    (hlast : mark.getLast hne ∉ mark.dropLast) :
    cut? mark s = some (before, rest) ↔ s = before ++ mark ++ rest ∧ ¬ mark <:+: before := by
  rw [cut?_eq_some_iff hne, infix_append_iff_of_last hne hlast]

end ParamClass.Text
