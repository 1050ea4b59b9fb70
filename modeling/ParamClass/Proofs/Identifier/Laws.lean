import ParamClass.Proofs.Identifier

/-!
# Laws of identifiers

A description gives an identifier unless it is blank, and the identifier gives itself. Blanks in a
description, and the choice between a hyphen and an underscore, make no difference, and what is put
behind a description is put behind its identifier.

That an identifier gives itself rests on the tables of upper case: the first character of an
upper-case form is its own upper case (`exists_upperCase_eq_cons`). Two runs are compared by their
ends, or by the parity of their members where they run through the same code points.
-/

namespace ParamClass

open Text

/-! ## Upper case is its own upper case -/

/-- The members of the run are all even or all odd. -/
def Text.CaseRun.isAlternating (run : CaseRun) : Bool := run.stride == 2 || run.first == run.last

/-- The code point that a member of the run is shifted to. -/
def Text.CaseRun.target (run : CaseRun) (n : Nat) : Nat := (n + run.shift).toNat

/-- No member of the run is shifted to a member of the other one, as their ends or their parities
show. -/
def Text.CaseRun.misses (run other : CaseRun) : Bool :=
  (run.target run.last).blt other.first || other.last.blt (run.target run.first) ||
    run.isAlternating && other.isAlternating && run.target run.first % 2 != other.first % 2

/-- A code point by itself, as a run. -/
def Text.CaseRun.single (n : Nat) : CaseRun := ⟨n, n, 1, 0⟩

/-- What runs are shifted to has its upper case in no run and in no sequence. -/
theorem misses_of_mem {run other : CaseRun} (h : run ∈ caseRuns)
    (hother : other ∈ caseRuns ++ caseSequences.map (CaseRun.single ·.1)) :
    run.misses other = true := by
  -- All pairs of runs are looked at, in two parts as they are many.
  have hfront : (caseRuns.take 100).all (fun run =>
      (caseRuns ++ caseSequences.map (CaseRun.single ·.1)).all (run.misses ·)) = true := by
    decide +kernel
  have hback : (caseRuns.drop 100).all (fun run =>
      (caseRuns ++ caseSequences.map (CaseRun.single ·.1)).all (run.misses ·)) = true := by
    decide +kernel
  rw [← caseRuns.take_append_drop 100, List.mem_append] at h
  rcases h with h | h
  · exact List.all_eq_true.1 (List.all_eq_true.1 hfront _ h) _ hother
  · exact List.all_eq_true.1 (List.all_eq_true.1 hback _ h) _ hother

/-- A run is shifted to letters: beyond ASCII, or it is one character that becomes an ASCII letter in
upper case. -/
theorem target_of_mem_caseRuns {run : CaseRun} (h : run ∈ caseRuns) :
    64 < run.first + run.shift ∧ (128 ≤ run.target run.first ∨ run.first = run.last ∧
      upperCase (.ofNat (run.target run.first)) = [.ofNat (run.target run.first)]) := by
  have hall : caseRuns.all (fun run => decide (64 < run.first + run.shift ∧
      (128 ≤ run.target run.first ∨ run.first = run.last ∧
        upperCase (.ofNat (run.target run.first)) = [.ofNat (run.target run.first)]))) = true := by
    decide +kernel
  exact of_decide_eq_true (List.all_eq_true.1 hall _ h)

/-- A sequence has a first character, which is its own upper case, and no hyphen. -/
theorem sequence_of_lookup {n : Nat} {codes : List Nat} (h : caseSequences.lookup n = some codes) :
    (∃ code rest, codes = code :: rest ∧ upperCase (.ofNat code) = [.ofNat code]) ∧
      ∀ code ∈ codes, Char.ofNat code ≠ '-' := by
  have hall : caseSequences.all (fun s => s.2.head?.any (fun code =>
      decide (upperCase (.ofNat code) = [.ofNat code])) &&
        s.2.all fun code => decide (Char.ofNat code ≠ '-')) = true := by
    decide +kernel
  obtain ⟨before, after, hsplit, -⟩ := List.lookup_eq_some_iff.1 h
  have hmem : (n, codes) ∈ caseSequences := by
    rw [hsplit]
    exact List.mem_append_right _ List.mem_cons_self
  have hone := List.all_eq_true.1 hall _ hmem
  rw [Bool.and_eq_true, Option.any_eq_true] at hone
  obtain ⟨⟨code, hcode, hupper⟩, hhyphen⟩ := hone
  obtain ⟨rest, hrest⟩ := List.head?_eq_some_iff.1 hcode
  refine ⟨⟨code, rest, hrest, of_decide_eq_true hupper⟩, fun code hmem => ?_⟩
  exact of_decide_eq_true (List.all_eq_true.1 hhyphen code hmem)

/-- A member of a run lies between its ends, and is even or odd like all others in a run with one
parity. -/
theorem Text.CaseRun.bounds_of_covers {run : CaseRun} {c : Char} (h : run.covers c = true) :
    run.first ≤ c.toNat ∧ c.toNat ≤ run.last ∧
      (run.isAlternating = true → c.toNat % 2 = run.first % 2) := by
  unfold covers at h
  rw [Bool.and_eq_true, Bool.and_eq_true, decide_eq_true_eq, decide_eq_true_eq, beq_iff_eq] at h
  obtain ⟨⟨hfirst, hlast⟩, hstride⟩ := h
  refine ⟨hfirst, hlast, fun halternating => ?_⟩
  unfold isAlternating at halternating
  rw [Bool.or_eq_true, beq_iff_eq, beq_iff_eq] at halternating
  rcases halternating with htwo | hsingle
  · rw [htwo] at hstride
    omega
  · omega

/-- A member of a run is not shifted to a member of a run that is missed. -/
theorem Text.CaseRun.not_covers_of_misses {run other : CaseRun} {c d : Char}
    (hpos : 64 < run.first + run.shift) (hc : run.covers c = true) (h : run.misses other = true)
    (hd : d.toNat = run.target c.toNat) : other.covers d = false := by
  obtain ⟨hfirst, hlast, hparity⟩ := bounds_of_covers hc
  rw [Bool.eq_false_iff]
  intro hother
  obtain ⟨hfirst', hlast', hparity'⟩ := bounds_of_covers hother
  unfold misses at h
  unfold target at h hd
  rw [Bool.or_eq_true, Bool.or_eq_true, Nat.blt_eq, Nat.blt_eq, Bool.and_eq_true, Bool.and_eq_true,
    bne_iff_ne] at h
  rcases h with (hbelow | habove) | ⟨⟨heven, heven'⟩, hne⟩
  · omega
  · omega
  · have hsame := hparity heven
    have hsame' := hparity' heven'
    omega

/-- A character above ASCII that is in no run and has no sequence is its own upper case. -/
theorem upperCase_eq_self {c : Char} (hascii : ¬ c.toNat < 128)
    (h : ∀ other ∈ caseRuns ++ caseSequences.map (CaseRun.single ·.1), other.covers c = false) :
    upperCase c = [c] := by
  have hsequences : caseSequences.lookup c.toNat = none := by
    rw [List.lookup_eq_none_iff]
    rintro ⟨n, codes⟩ hmem
    refine bne_iff_ne.2 ?_
    rintro rfl
    have hcovers := h (.single c.toNat)
      (List.mem_append_right _ (List.mem_map_of_mem (f := (CaseRun.single ·.1)) hmem))
    simp [CaseRun.single, CaseRun.covers] at hcovers
  have hruns : caseRuns.find? (·.covers c) = none := by
    rw [List.find?_eq_none]
    intro run hrun
    rw [h run (List.mem_append_left _ hrun)]
    exact Bool.false_ne_true
  rw [upperCase, if_neg hascii, hsequences, hruns]

/-- The upper case of a member of a run is its own upper case. -/
theorem upperCase_target {run : CaseRun} {c : Char} (h : run ∈ caseRuns)
    (hc : run.covers c = true) :
    upperCase (.ofNat (run.target c.toNat)) = [.ofNat (run.target c.toNat)] := by
  obtain ⟨hpos, hletter⟩ := target_of_mem_caseRuns h
  obtain ⟨hfirst, hlast, -⟩ := CaseRun.bounds_of_covers hc
  rcases hletter with hbeyond | ⟨hsingle, hupper⟩
  · rcases toNat_ofNat_eq_or (run.target c.toNat) with heq | heq
    · refine upperCase_eq_self ?_ fun other hother =>
        CaseRun.not_covers_of_misses hpos hc (misses_of_mem h hother) heq
      rw [heq]
      unfold CaseRun.target at hbeyond ⊢
      omega
    · -- A number that is no code point gives the character 0.
      rw [← Char.ofNat_toNat (.ofNat (run.target c.toNat)), heq]
      decide
  · have heq : c.toNat = run.first := by omega
    rw [heq]
    exact hupper

/-- Every character has an upper-case form, and the first character of the form is its own. -/
theorem exists_upperCase_eq_cons (c : Char) :
    ∃ d rest, upperCase c = d :: rest ∧ upperCase d = [d] := by
  rw [upperCase]
  split
  · next hascii =>
    have hall : ∀ n < 128, upperCase (Char.ofNat n).toUpper = [(Char.ofNat n).toUpper] := by
      decide +kernel
    have hself := hall c.toNat hascii
    rw [Char.ofNat_toNat] at hself
    exact ⟨_, [], rfl, hself⟩
  · next hascii =>
    split
    · next codes hcodes =>
      obtain ⟨⟨code, rest, rfl, hself⟩, -⟩ := sequence_of_lookup hcodes
      exact ⟨_, rest.map Char.ofNat, rfl, hself⟩
    · next hsequences =>
      split
      · next run hrun =>
        have hcovers : run.covers c = true := by simpa using List.find?_some hrun
        exact ⟨_, [], rfl, upperCase_target (List.mem_of_find?_eq_some hrun) hcovers⟩
      · next hruns =>
        refine ⟨c, [], rfl, ?_⟩
        rw [upperCase, if_neg hascii, hsequences, hruns]

/-- Only a hyphen has a hyphen in its upper-case form. -/
theorem eq_hyphen_of_mem_upperCase {c : Char} (h : '-' ∈ upperCase c) : c = '-' := by
  unfold upperCase at h
  split at h
  · next hascii =>
    have hall : ∀ n < 128, '-' = (Char.ofNat n).toUpper → Char.ofNat n = '-' := by decide +kernel
    have hself := hall c.toNat hascii
    rw [Char.ofNat_toNat] at hself
    exact hself (List.mem_singleton.1 h)
  · split at h
    · next codes hcodes =>
      obtain ⟨code, hcode, heq⟩ := List.mem_map.1 h
      exact absurd heq ((sequence_of_lookup hcodes).2 code hcode)
    · split at h
      · next run hrun =>
        have hcovers : run.covers c = true := by simpa using List.find?_some hrun
        obtain ⟨hpos, -⟩ := target_of_mem_caseRuns (List.mem_of_find?_eq_some hrun)
        obtain ⟨hfirst, -, -⟩ := CaseRun.bounds_of_covers hcovers
        -- The hyphen is below all letters.
        have hcode : (Char.ofNat (c.toNat + run.shift).toNat).toNat = 45 :=
          congrArg Char.toNat (List.mem_singleton.1 h).symm
        rcases toNat_ofNat_eq_or (c.toNat + run.shift).toNat with heq | heq
        · omega
        · omega
      · exact (List.mem_singleton.1 h).symm

/-! ## The characters of an identifier -/

/-- One more character of a description is left out, or put in front. -/
theorem identifierChars_cons (c : Char) (s : List Char) :
    identifierChars (c :: s) =
      if isBlank c then identifierChars s else (if c = '-' then '_' else c) :: identifierChars s := by
  unfold identifierChars
  split
  · next hc => rw [List.filter_cons_of_neg (by simp [hc])]
  · next hc => rw [List.filter_cons_of_pos (by simp [hc]), List.map_cons]

/-- The characters are found part by part. -/
theorem identifierChars_append (s t : List Char) :
    identifierChars (s ++ t) = identifierChars s ++ identifierChars t := by
  rw [identifierChars, List.filter_append, List.map_append]
  rfl

/-- No characters are left of a blank text, and of no other. -/
theorem identifierChars_eq_nil_iff {s : List Char} :
    identifierChars s = [] ↔ ∀ c ∈ s, isBlank c = true := by
  rw [identifierChars, List.map_eq_nil_iff, List.filter_eq_nil_iff]
  simp

/-- A hyphen is no character of an identifier. -/
theorem ne_hyphen_of_mem_identifierChars {s : List Char} {c : Char} (h : c ∈ identifierChars s) :
    c ≠ '-' := by
  obtain ⟨d, -, rfl⟩ := List.mem_map.1 h
  split
  · decide
  · assumption

/-- A text without blanks and hyphens stays. -/
theorem identifierChars_eq_self {s : List Char} (h : ∀ c ∈ s, isBlank c = false ∧ c ≠ '-') :
    identifierChars s = s := by
  induction s with
  | nil => rfl
  | cons c s ih =>
    rw [List.forall_mem_cons] at h
    obtain ⟨⟨hblank, hhyphen⟩, hs⟩ := h
    rw [identifierChars_cons, hblank, if_neg Bool.false_ne_true, if_neg hhyphen, ih hs]

/-- A description gives the identifier that is made of its characters, if there are any. -/
theorem identifier?_eq_some_iff {description name : String} :
    identifier? description = some name ↔
      ∃ c rest, identifierChars description.toList = c :: rest ∧
        name = .ofList (upperCase c ++ rest) := by
  rw [identifier?, upperFirst?, String.toList_ofList]
  split
  · next heq => simp [heq]
  · next c rest heq =>
    rw [heq]
    constructor
    · intro h
      exact ⟨c, rest, rfl, (Option.some.inj h).symm⟩
    · rintro ⟨c', rest', hcons, rfl⟩
      obtain ⟨rfl, rfl⟩ := List.cons.inj hcons
      rfl

/-- There is no identifier exactly when no characters are left. -/
theorem identifier?_eq_none_iff {description : String} :
    identifier? description = none ↔ identifierChars description.toList = [] := by
  rw [identifier?, upperFirst?, String.toList_ofList]
  split
  · next heq => simp [heq]
  · next heq => simp [heq]

/-- The identifier is decided by its characters. -/
theorem identifier?_congr {description other : String}
    (h : identifierChars description.toList = identifierChars other.toList) :
    identifier? description = identifier? other := by
  rw [identifier?, identifier?, h]

/-- An identifier has no hyphen. -/
theorem ne_hyphen_of_mem_identifier {description name : String} {c : Char}
    (h : identifier? description = some name) (hc : c ∈ name.toList) : c ≠ '-' := by
  obtain ⟨first, rest, heq, rfl⟩ := identifier?_eq_some_iff.1 h
  have hchars : ∀ d ∈ first :: rest, d ≠ '-' := fun d hd =>
    ne_hyphen_of_mem_identifierChars (heq ▸ hd)
  rw [String.toList_ofList, List.mem_append] at hc
  rcases hc with hc | hc
  · rintro rfl
    exact hchars first List.mem_cons_self (eq_hyphen_of_mem_upperCase hc)
  · exact hchars c (List.mem_cons_of_mem first hc)

/-- The characters of an identifier are those that it has. -/
theorem identifierChars_identifier {description name : String}
    (h : identifier? description = some name) : identifierChars name.toList = name.toList :=
  identifierChars_eq_self fun _ hc =>
    ⟨isBlank_of_mem_identifier h hc, ne_hyphen_of_mem_identifier h hc⟩

/-! ## Identifiers of identifiers and of other spellings -/

/-- An identifier gives itself. -/
theorem identifier?_identifier {description name : String} (h : identifier? description = some name) :
    identifier? name = some name := by
  have hchars := identifierChars_identifier h
  obtain ⟨first, rest, -, rfl⟩ := identifier?_eq_some_iff.1 h
  obtain ⟨c, cs, hupper, hself⟩ := exists_upperCase_eq_cons first
  rw [String.toList_ofList, hupper, List.cons_append] at hchars
  refine identifier?_eq_some_iff.2 ⟨c, cs ++ rest, ?_, ?_⟩
  · rw [String.toList_ofList, hupper, List.cons_append, hchars]
  · rw [hupper, hself, List.cons_append, List.singleton_append]

/-- What follows a description follows its identifier, without blanks and hyphens. -/
theorem identifier?_append {description name : String} (h : identifier? description = some name)
    (more : String) :
    identifier? (description ++ more) = some (name ++ .ofList (identifierChars more.toList)) := by
  obtain ⟨first, rest, heq, rfl⟩ := identifier?_eq_some_iff.1 h
  refine identifier?_eq_some_iff.2 ⟨first, rest ++ identifierChars more.toList, ?_, ?_⟩
  · rw [String.toList_append, identifierChars_append, heq, List.cons_append]
  · rw [← List.append_assoc, ← String.ofList_append]

/-- The second description is the first one with blanks put in or left out anywhere, and with any
hyphens written as underscores and underscores as hyphens. -/
inductive Respelled : List Char → List Char → Prop where
  /-- Nothing. -/
  | nil : Respelled [] []
  /-- A character stays. -/
  | char {c s t} (h : Respelled s t) : Respelled (c :: s) (c :: t)
  /-- A blank is left out. -/
  | dropBlank {c s t} (hc : isBlank c = true) (h : Respelled s t) : Respelled (c :: s) t
  /-- A blank is put in. -/
  | addBlank {c s t} (hc : isBlank c = true) (h : Respelled s t) : Respelled s (c :: t)
  /-- A hyphen is written as an underscore. -/
  | underscore {s t} (h : Respelled s t) : Respelled ('-' :: s) ('_' :: t)
  /-- An underscore is written as a hyphen. -/
  | hyphen {s t} (h : Respelled s t) : Respelled ('_' :: s) ('-' :: t)

/-- Another spelling has the same characters. -/
theorem Respelled.identifierChars_eq {s t : List Char} (h : Respelled s t) :
    identifierChars s = identifierChars t := by
  induction h with
  | nil => rfl
  | char _ ih => rw [identifierChars_cons, identifierChars_cons, ih]
  | dropBlank hc _ ih => rw [identifierChars_cons, if_pos hc, ih]
  | addBlank hc _ ih => rw [identifierChars_cons, if_pos hc, ih]
  | underscore _ ih =>
    rw [identifierChars_cons, identifierChars_cons, ih]
    rfl
  | hyphen _ ih =>
    rw [identifierChars_cons, identifierChars_cons, ih]
    rfl

/-- A description gives no identifier exactly when it is blank. The identifier that it gives otherwise
is not empty, has no blanks and no hyphens, gives itself, and goes on with what a longer description
goes on with. Every other spelling of a description gives the same. -/
theorem identifier?_laws :
    (∀ description, identifier? description = none ↔ ∀ c ∈ description.toList, isBlank c = true) ∧
    (∀ description name, identifier? description = some name →
      name ≠ "" ∧ (∀ c ∈ name.toList, isBlank c = false ∧ c ≠ '-') ∧
        identifier? name = some name ∧
        ∀ more, identifier? (description ++ more) =
          some (name ++ .ofList (identifierChars more.toList))) ∧
    ∀ description other : String, Respelled description.toList other.toList →
      identifier? description = identifier? other := by
  refine ⟨fun description => ?_, fun description name h => ⟨?_, ?_, ?_, ?_⟩, fun _ _ h => ?_⟩
  · rw [identifier?_eq_none_iff, identifierChars_eq_nil_iff]
  · -- The empty text gives no identifier, but an identifier gives itself.
    rintro rfl
    exact absurd (identifier?_identifier h) (by decide)
  · exact fun c hc => ⟨isBlank_of_mem_identifier h hc, ne_hyphen_of_mem_identifier h hc⟩
  · exact identifier?_identifier h
  · exact identifier?_append h
  · exact identifier?_congr h.identifierChars_eq

/-- The ligature of `f` and `l` becomes two letters, the second of them small, so that the identifier
starts with one upper-case letter. It is the same for a spelling with an ideographic space and an
underscore, and is followed by what follows the description. -/
theorem identifier?_of_ligature :
    identifier? "ﬂow -x" = some "FLow_x" ∧ identifier? "FLow_x" = some "FLow_x" ∧
      identifier? ("ﬂow -x" ++ " ﬁ-") = some "FLow_xﬁ_" ∧
      Respelled "ﬂow -x".toList "\u3000ﬂow_x".toList ∧
      identifier? "\u3000ﬂow_x" = some "FLow_x" := by
  obtain ⟨-, hsome, hrespelled⟩ := identifier?_laws
  have hname : identifier? "ﬂow -x" = some "FLow_x" := by decide +kernel
  obtain ⟨-, -, hself, hmore⟩ := hsome _ _ hname
  have hspelled : Respelled "ﬂow -x".toList "\u3000ﬂow_x".toList :=
    .addBlank (by decide) (.char (.char (.char (.dropBlank (by decide) (.underscore (.char .nil))))))
  have hsame := hrespelled _ _ hspelled
  exact ⟨hname, hself, (hmore " ﬁ-").trans (by decide +kernel), hspelled, hsame ▸ hname⟩

end ParamClass
