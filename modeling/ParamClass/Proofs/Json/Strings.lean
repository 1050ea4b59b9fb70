import ParamClass.Except
import ParamClass.Json.Text
import ParamClass.Proofs.Marks

/-!
# The grammar of JSON strings

What may stand between the quotes of a string, and the characters it stands for: a character as it
is, unless it has to be escaped, a letter after a backslash for one of eight, or the UTF-16 code
units of a character, each in four hexadecimal digits. Reading succeeds exactly on these texts, and a
written string is one of them.
-/

namespace ParamClass.Json

open Text

/-- The letters that stand for a character after a backslash. -/
def escapeLetters : List (Char × Char) :=
  [('"', '"'), ('\\', '\\'), ('/', '/'), ('b', '\x08'), ('f', '\x0c'), ('n', '\n'), ('r', '\r'),
    ('t', '\t')]

/-- Four hexadecimal digits and the code unit that they write. -/
def UnitText (t : List Char) (unit : Nat) : Prop :=
  ∃ a b c d, t.map digitValue? = [some a, some b, some c, some d] ∧
    unit = ((a * 16 + b) * 16 + c) * 16 + d

/-- What may follow a backslash, and the character it stands for with it. -/
inductive EscapeText : List Char → Char → Prop where
  /-- A letter. -/
  | letter {l c} (h : (l, c) ∈ escapeLetters) : EscapeText [l] c
  /-- The code unit of a character. -/
  | unit {t n} (ht : UnitText t n) (hn : n.isValidChar) : EscapeText ('u' :: t) (.ofNat n)
  /-- The two code units of a character. -/
  | pair {t t' n n'} (ht : UnitText t n) (hn : isLeading n = true) (ht' : UnitText t' n')
      (hn' : isTrailing n' = true) :
      EscapeText ('u' :: t ++ ('\\' :: 'u' :: t')) (pairChar n n')

/-- What may stand between the quotes of a string, and the characters it stands for. -/
inductive StringText : List Char → List Char → Prop where
  /-- Nothing. -/
  | nil : StringText [] []
  /-- A character as it is. -/
  | char {c t s} (hquote : c ≠ '"') (hbackslash : c ≠ '\\') (hcontrol : 0x20 ≤ c.toNat)
      (ht : StringText t s) : StringText (c :: t) (c :: s)
  /-- An escaped character. -/
  | escape {e c t s} (he : EscapeText e c) (ht : StringText t s) :
      StringText ('\\' :: e ++ t) (c :: s)

/-! ## Code units -/

/-- A text takes at least one byte for each character. -/
theorem length_le_byteSize (s : List Char) : s.length ≤ byteSize s := by
  induction s with
  | nil => exact Nat.zero_le _
  | cons c s ih =>
    have hcons : byteSize (c :: s) = c.utf8Size + byteSize s := by
      simp [byteSize, String.ofList_cons]
    have hc := c.utf8Size_pos
    rw [hcons, List.length_cons]
    omega

/-- Four digits of a code unit. -/
theorem UnitText.exists_eq {t : List Char} {unit : Nat} (h : UnitText t unit) :
    ∃ w x y z, t = [w, x, y, z] := by
  obtain ⟨a, b, c, d, hd, -⟩ := h
  have hlen : t.length = 4 := by simpa using congrArg List.length hd
  match t, hlen with
  | [w, x, y, z], _ => exact ⟨w, x, y, z, rfl⟩

/-- Reading a code unit succeeds exactly on four digits and what follows them. -/
theorem readUnit_eq_ok_iff {s rest : List Char} {unit : Nat} :
    readUnit s = .ok (unit, rest) ↔ ∃ t, UnitText t unit ∧ s = t ++ rest := by
  constructor
  · intro h
    unfold readUnit at h
    split at h
    · exact absurd h (by simp)
    · split at h
      · next w x y z r _ =>
        split at h
        · next a b c d ha hb hc hd =>
          obtain ⟨rfl, rfl⟩ := Prod.mk.inj (Except.ok.inj h)
          exact ⟨[w, x, y, z], ⟨a, b, c, d, by simp [ha, hb, hc, hd], rfl⟩, rfl⟩
        · exact absurd h (by simp)
      · exact absurd h (by simp)
  · rintro ⟨t, ht, rfl⟩
    obtain ⟨w, x, y, z, rfl⟩ := ht.exists_eq
    obtain ⟨a, b, c, d, hd, rfl⟩ := ht
    have hsize : ¬ byteSize ((w :: x :: y :: z :: rest).take 4) < 4 := by
      have hlen := length_le_byteSize ((w :: x :: y :: z :: rest).take 4)
      simpa using hlen
    simp only [List.map_cons, List.map_nil, List.cons.injEq, and_true] at hd
    obtain ⟨ha, hb, hc, hd⟩ := hd
    show readUnit (w :: x :: y :: z :: rest) = _
    rw [readUnit, if_neg hsize, ha, hb, hc, hd]

/-- A code unit has sixteen bits. -/
theorem UnitText.lt {t : List Char} {unit : Nat} (h : UnitText t unit) : unit < 0x10000 := by
  obtain ⟨w, x, y, z, rfl⟩ := h.exists_eq
  obtain ⟨a, b, c, d, hd, rfl⟩ := h
  simp only [List.map_cons, List.map_nil, List.cons.injEq, and_true] at hd
  obtain ⟨ha, hb, hc, hd⟩ := hd
  have := digitValue?_lt ha
  have := digitValue?_lt hb
  have := digitValue?_lt hc
  have := digitValue?_lt hd
  omega

/-- A code unit stands for a character by itself exactly when it is no half of a pair. -/
theorem UnitText.isValidChar_iff {t : List Char} {unit : Nat} (h : UnitText t unit) :
    unit.isValidChar ↔ isLeading unit = false ∧ isTrailing unit = false := by
  have := h.lt
  simp only [Nat.isValidChar, isLeading, isTrailing, Bool.and_eq_false_iff, decide_eq_false_iff_not]
  omega

/-- No code unit is both halves of a pair. -/
theorem isTrailing_of_isLeading {unit : Nat} (h : isLeading unit = true) : isTrailing unit = false := by
  simp only [isLeading, isTrailing, Bool.and_eq_true, decide_eq_true_eq, Bool.and_eq_false_iff,
    decide_eq_false_iff_not] at h ⊢
  omega

/-! ## Escaped characters -/

/-- Reading a mark in a pair succeeds exactly on the mark and what follows it. -/
theorem readPairMark_eq_ok_iff {mark : Char} {s rest : List Char} :
    readPairMark mark s = .ok rest ↔ s = mark :: rest := by
  cases s with
  | nil => simp [readPairMark]
  | cons c s =>
    rw [readPairMark]
    split_ifs with hc
    · simp [hc]
    · simp [hc]

/-- Reading a character by its code units succeeds exactly on one of its own or two of a pair. -/
theorem readCoded_eq_ok_iff {s rest : List Char} {c : Char} :
    readCoded s = .ok (c, rest) ↔ ∃ t, EscapeText ('u' :: t) c ∧ s = t ++ rest := by
  constructor
  · intro h
    rw [readCoded, bind_eq_ok] at h
    obtain ⟨⟨n, r⟩, hunit, h⟩ := h
    obtain ⟨t, ht, rfl⟩ := readUnit_eq_ok_iff.1 hunit
    dsimp only at h
    split_ifs at h with htrailing hleading
    · obtain ⟨r₁, hbackslash, hafter⟩ := bind_eq_ok.1 h
      obtain ⟨r₂, hu, hsecond⟩ := bind_eq_ok.1 hafter
      obtain ⟨⟨n', r'⟩, hunit', hend⟩ := bind_eq_ok.1 hsecond
      obtain rfl := readPairMark_eq_ok_iff.1 hbackslash
      obtain rfl := readPairMark_eq_ok_iff.1 hu
      obtain ⟨t', ht', rfl⟩ := readUnit_eq_ok_iff.1 hunit'
      split_ifs at hend with htrailing'
      obtain ⟨rfl, rfl⟩ := Prod.mk.inj (Except.ok.inj hend)
      exact ⟨_, .pair ht hleading ht' htrailing', by simp⟩
    · obtain ⟨rfl, rfl⟩ := Prod.mk.inj (Except.ok.inj h)
      have hvalid := ht.isValidChar_iff.2 ⟨by simpa using hleading, by simpa using htrailing⟩
      exact ⟨t, .unit ht hvalid, rfl⟩
  · rintro ⟨t, he, rfl⟩
    generalize heq : 'u' :: t = e at he
    cases he with
    | letter h =>
      obtain ⟨rfl, -⟩ := List.cons.inj heq
      simp [escapeLetters] at h
    | @unit t' n ht hn =>
      obtain rfl : t = t' := (List.cons.inj heq).2
      obtain ⟨hleading, htrailing⟩ := ht.isValidChar_iff.1 hn
      rw [readCoded, bind_eq_ok]
      refine ⟨_, readUnit_eq_ok_iff.2 ⟨t, ht, rfl⟩, ?_⟩
      simp [hleading, htrailing]
    | @pair t₁ t₂ n n' ht hn ht' hn' =>
      obtain rfl : t = t₁ ++ ('\\' :: 'u' :: t₂) := (List.cons.inj heq).2
      rw [readCoded, bind_eq_ok]
      refine ⟨_, readUnit_eq_ok_iff.2 ⟨t₁, ht, List.append_assoc _ _ _⟩, ?_⟩
      dsimp only
      rw [isTrailing_of_isLeading hn, hn, if_neg (by simp), if_pos rfl, bind_eq_ok]
      refine ⟨_, readPairMark_eq_ok_iff.2 rfl, ?_⟩
      rw [bind_eq_ok]
      refine ⟨_, readPairMark_eq_ok_iff.2 rfl, ?_⟩
      rw [bind_eq_ok]
      refine ⟨_, readUnit_eq_ok_iff.2 ⟨t₂, ht', rfl⟩, ?_⟩
      dsimp only
      rw [hn', if_pos rfl]

/-- Reading an escaped character succeeds exactly on one and what follows it. -/
theorem readEscape_eq_ok_iff {s rest : List Char} {c : Char} :
    readEscape s = .ok (c, rest) ↔ ∃ t, EscapeText t c ∧ s = t ++ rest := by
  have hletter : ∀ {l d : Char} {r : List Char}, (l, d) ∈ escapeLetters →
      (.ok (d, r) : Except Stop (Char × List Char)) = .ok (c, rest) →
      ∃ t, EscapeText t c ∧ l :: r = t ++ rest := by
    intro l d r hl h
    obtain ⟨rfl, rfl⟩ := Prod.mk.inj (Except.ok.inj h)
    exact ⟨[l], .letter hl, rfl⟩
  constructor
  · intro h
    unfold readEscape at h
    split at h
    · exact absurd h (by simp)
    · exact hletter (by decide) h
    · exact hletter (by decide) h
    · exact hletter (by decide) h
    · exact hletter (by decide) h
    · exact hletter (by decide) h
    · exact hletter (by decide) h
    · exact hletter (by decide) h
    · exact hletter (by decide) h
    · obtain ⟨t, ht, rfl⟩ := readCoded_eq_ok_iff.1 h
      exact ⟨'u' :: t, ht, rfl⟩
    · exact absurd h (by simp)
  · rintro ⟨t, he, rfl⟩
    cases he with
    | @letter l c h =>
      simp only [escapeLetters, List.mem_cons, Prod.mk.injEq, List.not_mem_nil, or_false] at h
      obtain ⟨rfl, rfl⟩ | ⟨rfl, rfl⟩ | ⟨rfl, rfl⟩ | ⟨rfl, rfl⟩ | ⟨rfl, rfl⟩ | ⟨rfl, rfl⟩ |
        ⟨rfl, rfl⟩ | ⟨rfl, rfl⟩ := h <;> rfl
    | unit ht hn => exact readCoded_eq_ok_iff.2 ⟨_, .unit ht hn, rfl⟩
    | pair ht hn ht' hn' => exact readCoded_eq_ok_iff.2 ⟨_, .pair ht hn ht' hn', rfl⟩

/-! ## Whole strings -/

/-- Reading a string succeeds exactly on the text of one, its quote and what follows. -/
theorem readString_eq_ok_iff {s content rest : List Char} :
    readString s = .ok (content, rest) ↔ ∃ t, StringText t content ∧ s = t ++ '"' :: rest := by
  constructor
  · intro h
    fun_induction readString s generalizing content with
    | case1 => exact absurd h (by simp)
    | case2 =>
      obtain ⟨rfl, rfl⟩ := Prod.mk.inj (Except.ok.inj h)
      exact ⟨[], .nil, rfl⟩
    | case3 => exact absurd h (by simp)
    | case4 => exact absurd h (by simp)
    | case5 r d r' hd t t' ht _ ih =>
      obtain ⟨rfl, rfl⟩ := Prod.mk.inj (Except.ok.inj h)
      obtain ⟨e, he, rfl⟩ := readEscape_eq_ok_iff.1 hd
      obtain ⟨u, hu, rfl⟩ := ih ht
      exact ⟨_, .escape he hu, by simp⟩
    | case6 => exact absurd h (by simp)
    | case7 => exact absurd h (by simp)
    | case8 c r hquote hbackslash hcontrol t t' ht ih =>
      obtain ⟨rfl, rfl⟩ := Prod.mk.inj (Except.ok.inj h)
      obtain ⟨u, hu, rfl⟩ := ih ht
      exact ⟨_, .char hquote hbackslash (Nat.not_lt.1 hcontrol) hu, rfl⟩
  · rintro ⟨t, ht, rfl⟩
    induction ht with
    | nil => rw [List.nil_append, readString, if_pos rfl]
    | char hquote hbackslash hcontrol _ ih =>
      rw [List.cons_append, readString, if_neg hquote, if_neg hbackslash,
        if_neg (Nat.not_lt.2 hcontrol), ih]
    | @escape e c t s he _ ih =>
      have hread : readEscape (e ++ (t ++ '"' :: rest)) = .ok (c, t ++ '"' :: rest) :=
        readEscape_eq_ok_iff.2 ⟨e, he, rfl⟩
      rw [List.cons_append, List.cons_append, List.append_assoc, readString, if_neg (by decide),
        if_pos rfl, hread]
      dsimp only
      rw [ih]

/-- Two texts of strings can stand one after the other. -/
theorem StringText.append {t s t' s' : List Char} (h : StringText t s) (h' : StringText t' s') :
    StringText (t ++ t') (s ++ s') := by
  induction h with
  | nil => exact h'
  | char hquote hbackslash hcontrol _ ih => exact .char hquote hbackslash hcontrol ih
  | escape he _ ih =>
    rw [List.append_assoc]
    exact .escape he ih

/-- A control character is written by its code unit. -/
theorem unitText_hexPair {n : Nat} (h : n < 0x20) : UnitText (['0', '0'] ++ hexPair n) n := by
  have hhigh : n / 16 < 16 := by omega
  have hlow : n % 16 < 16 := by omega
  have hzero : digitValue? '0' = some 0 := by decide
  refine ⟨0, 0, n / 16, n % 16, ?_, by omega⟩
  simp [hexPair, hzero, digitValue?_digitChar hhigh, digitValue?_digitChar hlow]

/-- A written character is the text of a string with that character alone. -/
theorem stringText_writeChar (c : Char) : StringText (writeChar c) [c] := by
  have hletter : ∀ {l : Char}, (l, c) ∈ escapeLetters → StringText ['\\', l] [c] := fun hl =>
    .escape (.letter hl) .nil
  unfold writeChar
  split_ifs with h1 h2 h3 h4 h5 h6 h7 h8
  · exact hletter (by rw [h1]; decide)
  · exact hletter (by rw [h2]; decide)
  · exact hletter (by rw [h3]; decide)
  · exact hletter (by rw [h4]; decide)
  · exact hletter (by rw [h5]; decide)
  · exact hletter (by rw [h6]; decide)
  · exact hletter (by rw [h7]; decide)
  · have hunit := EscapeText.unit (unitText_hexPair h8) (.inl (by omega))
    rw [Char.ofNat_toNat] at hunit
    have htext := StringText.escape hunit .nil
    rwa [List.append_nil] at htext
  · exact .char h1 h2 (Nat.not_lt.1 h8) .nil

/-- Written characters are the text of a string with these characters. -/
theorem stringText_flatMap_writeChar (s : List Char) : StringText (s.flatMap writeChar) s := by
  induction s with
  | nil => exact .nil
  | cons c s ih => exact (stringText_writeChar c).append ih

end ParamClass.Json
