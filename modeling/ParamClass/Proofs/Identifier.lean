import ParamClass.Identifier

/-!
# Characters of an identifier

Upper case never turns a character that is not blank into a blank one. So an identifier, which is
made without the blanks of its description, has none, and in particular no line end.
-/

namespace ParamClass

open Text

/-! ## Upper case -/

/-- The characters of a sequence are not blank. -/
theorem isBlank_of_mem_caseSequences {n code : Nat} {codes : List Nat}
    (h : (n, codes) ∈ caseSequences) (hcode : code ∈ codes) : isBlank (.ofNat code) = false := by
  have hall : caseSequences.all (fun s => s.2.all fun code => !isBlank (.ofNat code)) = true := by
    decide +kernel
  have hblank := List.all_eq_true.1 (List.all_eq_true.1 hall _ h) _ hcode
  rwa [Bool.not_eq_true'] at hblank

/-- No run is shifted into a range of blanks, nor across one of its ends. -/
theorem shift_of_mem_caseRuns {run : CaseRun} {range : Nat × Nat} (h : run ∈ caseRuns)
    (hrange : range ∈ blankRanges) :
    run.last + run.shift < range.1 ∨ range.2 < run.first + run.shift := by
  have hall : caseRuns.all (fun run => blankRanges.all fun range =>
      decide (run.last + run.shift < range.1 ∨ range.2 < run.first + run.shift)) = true := by
    decide +kernel
  exact of_decide_eq_true (List.all_eq_true.1 (List.all_eq_true.1 hall _ h) _ hrange)

/-- The code point of a character that a number gives is that number, or zero. -/
theorem toNat_ofNat_eq_or (n : Nat) : (Char.ofNat n).toNat = n ∨ (Char.ofNat n).toNat = 0 := by
  by_cases h : n.isValidChar
  · left
    rw [Char.ofNat, dif_pos h]
    rfl
  · right
    rw [Char.ofNat, dif_neg h]
    rfl

/-- The upper case of a character in a run is not blank. -/
theorem isBlank_shift {run : CaseRun} {c : Char} (h : run ∈ caseRuns) (hc : run.covers c = true) :
    isBlank (.ofNat (c.toNat + run.shift).toNat) = false := by
  rw [CaseRun.covers, Bool.and_eq_true, Bool.and_eq_true, decide_eq_true_eq, decide_eq_true_eq] at hc
  obtain ⟨⟨hfirst, hlast⟩, -⟩ := hc
  rw [Bool.eq_false_iff]
  intro hblank
  obtain ⟨range, hrange, hlo, hhi⟩ := inRanges_iff.1 hblank
  have hshift := shift_of_mem_caseRuns h hrange
  have hpos : 0 < range.1 := by
    have hall : blankRanges.all (fun range => decide (0 < range.1)) = true := by decide
    exact of_decide_eq_true (List.all_eq_true.1 hall _ hrange)
  -- The character lies between the shifted ends of the run, unless it is the one with code point 0.
  rcases toNat_ofNat_eq_or (c.toNat + run.shift).toNat with heq | heq
  · omega
  · omega

/-- The upper case of a character that is not blank has no blank in it. -/
theorem isBlank_of_mem_upperCase {c d : Char} (hc : isBlank c = false) (hd : d ∈ upperCase c) :
    isBlank d = false := by
  unfold upperCase at hd
  split at hd
  · next hascii =>
    have hall : ∀ n < 128, isBlank (.ofNat n) = false → isBlank (Char.ofNat n).toUpper = false := by
      decide +kernel
    rw [List.mem_singleton.1 hd, ← Char.ofNat_toNat c]
    apply hall c.toNat hascii
    rwa [Char.ofNat_toNat]
  · split at hd
    · next codes hcodes =>
      obtain ⟨code, hcode, rfl⟩ := List.mem_map.1 hd
      obtain ⟨before, after, heq, -⟩ := List.lookup_eq_some_iff.1 hcodes
      have hmem : (c.toNat, codes) ∈ caseSequences := by
        rw [heq]
        exact List.mem_append_right _ List.mem_cons_self
      exact isBlank_of_mem_caseSequences hmem hcode
    · split at hd
      · next run hrun =>
        rw [List.mem_singleton.1 hd]
        have hcovers : run.covers c = true := by simpa using List.find?_some hrun
        exact isBlank_shift (List.mem_of_find?_eq_some hrun) hcovers
      · rwa [List.mem_singleton.1 hd]

/-! ## Identifiers -/

/-- The characters that an identifier is made of are not blank. -/
theorem isBlank_of_mem_identifierChars {description : List Char} {c : Char}
    (h : c ∈ identifierChars description) : isBlank c = false := by
  obtain ⟨d, hd, rfl⟩ := List.mem_map.1 h
  have hblank : isBlank d = false := by simpa using (List.mem_filter.1 hd).2
  split
  · decide
  · exact hblank

/-- An identifier has no blank in it. -/
theorem isBlank_of_mem_identifier {description identifier : String} {c : Char}
    (h : identifier? description = some identifier) (hc : c ∈ identifier.toList) :
    isBlank c = false := by
  unfold identifier? upperFirst? at h
  rw [String.toList_ofList] at h
  split at h
  · exact absurd h (by simp)
  · next first rest heq =>
    obtain rfl := Option.some.inj h
    have hchars : ∀ d ∈ first :: rest, isBlank d = false := by
      intro d hd
      rw [← heq] at hd
      exact isBlank_of_mem_identifierChars hd
    rw [String.toList_ofList, List.mem_append] at hc
    rcases hc with hc | hc
    · exact isBlank_of_mem_upperCase (hchars first List.mem_cons_self) hc
    · exact hchars c (List.mem_cons_of_mem first hc)

end ParamClass
