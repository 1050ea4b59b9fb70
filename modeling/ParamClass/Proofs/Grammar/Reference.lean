import Mathlib.Data.Nat.Digits.Defs
import ParamClass.Proofs.Marks
import ParamClass.Xml.Reference

/-!
# The grammar of references

What may stand between the `&` and the `;` of a reference, and the character it stands for: one of
five names, or a number sign and the digits of a code point, which may have a sign `+` before them.
Reading a reference succeeds exactly on these.
-/

namespace ParamClass.Xml

open Text

/-- The digits `s` write `n` in a base, the first digit being worth most. -/
def IsNumeral (base : Nat) (s : List Char) (n : Nat) : Prop :=
  ∃ ds : List Nat, ds ≠ [] ∧ s.map digitValue? = ds.map some ∧ (∀ d ∈ ds, d < base) ∧
    n = Nat.ofDigits base ds.reverse

/-- A numeral that may have a sign `+` before its digits. -/
def IsSignedNumeral (base : Nat) (s : List Char) (n : Nat) : Prop :=
  ∃ digits, IsNumeral base digits n ∧ (s = digits ∨ s = '+' :: digits)

/-- The name of a reference, and the character it stands for. A code point has to be one of a
character, so numbers of more than 32 bits need no rule of their own. -/
inductive ReferenceName : List Char → Char → Prop where
  /-- The less-than sign. -/
  | lt : ReferenceName ['l', 't'] '<'
  /-- The greater-than sign. -/
  | gt : ReferenceName ['g', 't'] '>'
  /-- The ampersand. -/
  | amp : ReferenceName ['a', 'm', 'p'] '&'
  /-- The double quote. -/
  | quot : ReferenceName ['q', 'u', 'o', 't'] '"'
  /-- The single quote. -/
  | apos : ReferenceName ['a', 'p', 'o', 's'] '\''
  /-- A code point in decimal digits. -/
  | decimal {s n} (hs : IsSignedNumeral 10 s n) (hn : n.isValidChar) :
      ReferenceName ('#' :: s) (.ofNat n)
  /-- A code point in hexadecimal digits. -/
  | hexadecimal {s n} (hs : IsSignedNumeral 16 s n) (hn : n.isValidChar) :
      ReferenceName ('#' :: 'x' :: s) (.ofNat n)

/-- A reference to a character. -/
def ReferenceText (t : List Char) (c : Char) : Prop :=
  ∃ name, ';' ∉ name ∧ ReferenceName name c ∧ t = '&' :: name ++ [';']

/-- A reference is an ampersand and more. -/
theorem ReferenceText.exists_eq {t : List Char} {c : Char} (h : ReferenceText t c) :
    ∃ r, t = '&' :: r := by
  obtain ⟨name, -, -, rfl⟩ := h
  exact ⟨_, rfl⟩

/-! ## Numbers -/

/-- Digits after a value shift it by their number and add what they write. -/
theorem digitsValue?_eq_some_iff {base value n : Nat} {s : List Char} :
    digitsValue? base value s = some n ↔
      ∃ ds : List Nat, s.map digitValue? = ds.map some ∧ (∀ d ∈ ds, d < base) ∧
        n = value * base ^ ds.length + Nat.ofDigits base ds.reverse := by
  induction s generalizing value with
  | nil =>
    rw [digitsValue?, Option.some.injEq]
    constructor
    · rintro rfl
      exact ⟨[], rfl, by simp, by simp⟩
    · rintro ⟨ds, hds, -, rfl⟩
      obtain rfl : ds = [] := by simpa using hds.symm
      simp
  | cons c s ih =>
    -- A digit more makes the value before it worth one power of the base more.
    have hstep : ∀ (d : Nat) (ds : List Nat),
        (value * base + d) * base ^ ds.length + Nat.ofDigits base ds.reverse =
          value * base ^ (d :: ds).length + Nat.ofDigits base (d :: ds).reverse := by
      intro d ds
      rw [List.reverse_cons, Nat.ofDigits_append, Nat.ofDigits_singleton, List.length_reverse,
        List.length_cons, pow_succ']
      ring
    rw [digitsValue?]
    constructor
    · intro h
      split at h
      · next d hd =>
        split_ifs at h with hlt
        obtain ⟨ds, hds, hall, rfl⟩ := ih.1 h
        refine ⟨d :: ds, ?_, List.forall_mem_cons.2 ⟨hlt, hall⟩, hstep d ds⟩
        rw [List.map_cons, List.map_cons, hd, hds]
      · exact absurd h (by simp)
    · rintro ⟨ds, hds, hall, rfl⟩
      rcases ds with _ | ⟨d, ds⟩
      · exact absurd hds (by simp)
      · rw [List.map_cons, List.map_cons, List.cons.injEq] at hds
        rw [List.forall_mem_cons] at hall
        rw [hds.1]
        dsimp only
        rw [if_pos hall.1]
        exact ih.2 ⟨ds, hds.2, hall.2, (hstep d ds).symm⟩

/-- A numeral starts with a digit. -/
theorem IsNumeral.exists_cons {base n : Nat} {s : List Char} (h : IsNumeral base s n) :
    ∃ c r d, s = c :: r ∧ digitValue? c = some d := by
  obtain ⟨ds, hne, hds, -, -⟩ := h
  rcases s with _ | ⟨c, r⟩ <;> rcases ds with _ | ⟨d, ds⟩
  · exact absurd rfl hne
  · exact absurd hds (by simp)
  · exact absurd hds (by simp)
  · exact ⟨c, r, d, rfl, (List.cons.inj hds).1⟩

/-- Digits from nothing write what they write as a numeral. -/
theorem digitsValue?_zero_eq_some_iff {base n : Nat} {s : List Char} (hs : s ≠ []) :
    digitsValue? base 0 s = some n ↔ IsNumeral base s n := by
  rw [digitsValue?_eq_some_iff, IsNumeral]
  constructor
  · rintro ⟨ds, hds, hall, hn⟩
    refine ⟨ds, ?_, hds, hall, by simpa using hn⟩
    rintro rfl
    exact hs (by simpa using hds)
  · rintro ⟨ds, -, hds, hall, hn⟩
    exact ⟨ds, hds, hall, by simpa using hn⟩

/-- A number is read exactly from a numeral with or without a sign. -/
theorem number?_eq_some_iff {base n : Nat} {s : List Char} :
    number? base s = some n ↔ IsSignedNumeral base s n := by
  constructor
  · intro h
    unfold number? at h
    split at h
    · exact absurd h (by simp)
    · exact absurd h (by simp)
    · next digits hne =>
      have hd : digits ≠ [] := by
        rintro rfl
        exact hne rfl
      exact ⟨digits, (digitsValue?_zero_eq_some_iff hd).1 h, .inr rfl⟩
    · next hne _ _ => exact ⟨s, (digitsValue?_zero_eq_some_iff hne).1 h, .inl rfl⟩
  · rintro ⟨digits, hd, hs⟩
    obtain ⟨c, r, d, rfl, hc⟩ := hd.exists_cons
    rw [← digitsValue?_zero_eq_some_iff (by simp)] at hd
    rcases hs with rfl | rfl
    · -- The first digit is no sign.
      have hplus : c ≠ '+' := by
        rintro rfl
        have hnone : digitValue? '+' = none := by decide
        rw [hnone] at hc
        exact absurd hc (by simp)
      unfold number?
      split
      · next heq => exact absurd heq (by simp)
      · next heq => exact absurd (List.cons.inj heq).1 hplus
      · next heq => exact absurd (List.cons.inj heq).1 hplus
      · exact hd
    · rw [number?.eq_def]
      exact hd

/-- A numeral holds nothing but digits. -/
theorem IsNumeral.not_mem {base n : Nat} {s : List Char} {c : Char} (h : IsNumeral base s n)
    (hc : digitValue? c = none) : c ∉ s := by
  obtain ⟨ds, -, hds, -, -⟩ := h
  intro hmem
  have hvalue : digitValue? c ∈ ds.map some := hds ▸ List.mem_map_of_mem hmem
  rw [hc] at hvalue
  simp at hvalue

/-- A numeral that may be signed holds nothing but digits and the sign. -/
theorem IsSignedNumeral.not_mem {base n : Nat} {s : List Char} {c : Char}
    (h : IsSignedNumeral base s n) (hc : digitValue? c = none) (hplus : c ≠ '+') : c ∉ s := by
  obtain ⟨digits, hdigits, rfl | rfl⟩ := h
  · exact hdigits.not_mem hc
  · exact List.not_mem_cons_of_ne_of_not_mem hplus (hdigits.not_mem hc)

/-- The name of a reference holds no less-than sign and no line end. -/
theorem ReferenceName.not_mem {name : List Char} {c d : Char} (h : ReferenceName name c)
    (hd : d = '<' ∨ d = '\r' ∨ d = '\n') : d ∉ name := by
  have hnumeral : ∀ {base n : Nat} {s : List Char}, IsSignedNumeral base s n → d ∉ s := by
    intro base n s hs
    apply hs.not_mem <;> rcases hd with rfl | rfl | rfl <;> decide
  cases h with
  | lt | gt | amp | quot | apos => rcases hd with rfl | rfl | rfl <;> decide
  | decimal hs => rcases hd with rfl | rfl | rfl <;> simp [hnumeral hs]
  | hexadecimal hs => rcases hd with rfl | rfl | rfl <;> simp [hnumeral hs]

/-- A reference holds no less-than sign and no CR. -/
theorem ReferenceText.not_mem {t : List Char} {c d : Char} (h : ReferenceText t c)
    (hd : d = '<' ∨ d = '\r') : d ∉ t := by
  obtain ⟨name, -, hname, rfl⟩ := h
  have hin : d ∉ name := hname.not_mem (hd.imp_right .inl)
  rcases hd with rfl | rfl <;> simp [hin]

/-! ## Reading references -/

/-- A signed numeral does not start with the letter of the hexadecimal form. -/
theorem IsSignedNumeral.after?_eq_none {base n : Nat} {s : List Char}
    (h : IsSignedNumeral base s n) : after? ['x'] s = none := by
  obtain ⟨digits, hd, hs⟩ := h
  obtain ⟨c, r, d, rfl, hc⟩ := hd.exists_cons
  rcases hs with rfl | rfl
  · rw [after?, if_neg]
    rintro rfl
    have hnone : digitValue? 'x' = none := by decide
    rw [hnone] at hc
    exact absurd hc (by simp)
  · rfl

/-- A character has a code point, and is the one with it. -/
theorem character?_eq_some_iff {n : Nat} {c : Char} :
    character? n = some c ↔ n.isValidChar ∧ c = .ofNat n := by
  unfold character?
  split_ifs with h
  · simp [h, eq_comm]
  · simp [h]

/-- A name that is decoded stands for the character that it is decoded to. -/
theorem referenceName_of_decodeReference {name : List Char} {c : Char}
    (h : decodeReference name = .ok c) : ReferenceName name c := by
  unfold decodeReference at h
  split at h
  · next d hd =>
    obtain rfl := Except.ok.inj h
    unfold entity? at hd
    split_ifs at hd <;> subst name <;> obtain rfl := Option.some.inj hd
    · exact .lt
    · exact .gt
    · exact .amp
    · exact .quot
    · exact .apos
  · split at h
    · exact absurd h (by simp)
    · next number hnum =>
      obtain rfl := after?_eq_some.1 hnum
      dsimp only at h
      split at h
      · next d hd =>
        obtain rfl := Except.ok.inj h
        obtain ⟨n, hn, hc⟩ := Option.bind_eq_some_iff.1 hd
        obtain ⟨hv, rfl⟩ := character?_eq_some_iff.1 hc
        split at hn
        · next hex hx =>
          obtain rfl := after?_eq_some.1 hx
          exact .hexadecimal (number?_eq_some_iff.1 hn) hv
        · exact .decimal (number?_eq_some_iff.1 hn) hv
      · exact absurd h (by simp)

/-- A name is decoded to the character that it stands for. -/
theorem ReferenceName.decodeReference_eq {name : List Char} {c : Char} (h : ReferenceName name c) :
    decodeReference name = .ok c := by
  -- The five names are decided; a number is neither of them nor of the other base.
  rcases h with _ | _ | _ | _ | _ | ⟨hs, hn⟩ | ⟨hs, hn⟩
  · rfl
  · rfl
  · rfl
  · rfl
  · rfl
  · next s n =>
    have he : entity? ('#' :: s) = none := by simp [entity?]
    have ha : after? ['#'] ('#' :: s) = some s := after?_append ['#'] s
    rw [decodeReference, he]
    dsimp only
    rw [ha]
    dsimp only
    rw [hs.after?_eq_none, number?_eq_some_iff.2 hs, Option.bind_some,
      character?_eq_some_iff.2 ⟨hn, rfl⟩]
  · next s n =>
    have he : entity? ('#' :: 'x' :: s) = none := by simp [entity?]
    have ha : after? ['#'] ('#' :: 'x' :: s) = some ('x' :: s) := after?_append ['#'] _
    have hx : after? ['x'] ('x' :: s) = some s := after?_append ['x'] s
    rw [decodeReference, he]
    dsimp only
    rw [ha]
    dsimp only
    rw [hx]
    dsimp only
    rw [number?_eq_some_iff.2 hs, Option.bind_some, character?_eq_some_iff.2 ⟨hn, rfl⟩]

/-- Reading a reference with a given name succeeds exactly when the name stands for a character. -/
theorem readReference_name_eq_ok_iff {name s rest : List Char} {c : Char} (hname : ';' ∉ name) :
    readReference (name ++ ';' :: s) = .ok (c, rest) ↔ ReferenceName name c ∧ rest = s := by
  have hcut : cut? [';'] (name ++ ';' :: s) = some (name, s) := by
    rw [cut?_eq_some_iff_of_last (by simp) (by decide), List.singleton_infix_iff]
    exact ⟨by simp, hname⟩
  rw [readReference, hcut]
  dsimp only
  constructor
  · intro h
    split at h
    · next d hd =>
      obtain ⟨rfl, rfl⟩ := Prod.mk.inj (Except.ok.inj h)
      exact ⟨referenceName_of_decodeReference hd, rfl⟩
    · exact absurd h (by simp)
  · rintro ⟨h, rfl⟩
    rw [h.decodeReference_eq]

/-- Reading a reference succeeds exactly on a reference and what follows it. -/
theorem readReference_eq_ok_iff {s rest : List Char} {c : Char} :
    readReference s = .ok (c, rest) ↔ ∃ t, ReferenceText t c ∧ '&' :: s = t ++ rest := by
  constructor
  · intro h
    have hcut : ∃ name r, cut? [';'] s = some (name, r) := by
      unfold readReference at h
      split at h
      · exact absurd h (by simp)
      · next name r hc => exact ⟨name, r, hc⟩
    obtain ⟨name, r, hcut⟩ := hcut
    rw [cut?_eq_some_iff_of_last (by simp) (by decide), List.singleton_infix_iff] at hcut
    obtain ⟨rfl, hname⟩ := hcut
    rw [List.append_assoc, List.singleton_append, readReference_name_eq_ok_iff hname] at h
    obtain ⟨hdecoded, rfl⟩ := h
    exact ⟨_, ⟨name, hname, hdecoded, rfl⟩, by simp⟩
  · rintro ⟨t, ⟨name, hname, hdecoded, rfl⟩, hs⟩
    obtain rfl : s = name ++ ';' :: rest := by simpa using hs
    exact (readReference_name_eq_ok_iff hname).2 ⟨hdecoded, rfl⟩

end ParamClass.Xml
