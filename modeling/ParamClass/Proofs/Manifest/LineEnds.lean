import ParamClass.Generation.Basic
import ParamClass.Proofs.Manifest.Wrapper

/-!
# Line ends do not matter

A text may end its lines in LF, CR LF or CR, each line as it likes. Read as a document, as a manifest
or for the class, it gives the same result as with LF everywhere, and the same fault at the same
place if it gives one.

`SameLines` says what may be written for the line ends of a text. It is exactly what normalizing
takes back (`sameLines_iff`), so all that is left to show is that the tags of the made-up root
change nothing of it.
-/

namespace ParamClass

open Text Xml

/-! ## Texts with the same lines -/

/-- The second text is the first one with each LF written as LF, CR LF or CR. A CR by itself has no
LF behind it that was left as it is, as the two would be one line end. -/
inductive Text.SameLines : List Char → List Char → Prop where
  /-- Nothing. -/
  | nil : SameLines [] []
  /-- A character that ends no line stays. -/
  | char {c s t} (hc : c ≠ '\n') (h : SameLines s t) : SameLines (c :: s) (c :: t)
  /-- An LF stays. -/
  | lf {s t} (h : SameLines s t) : SameLines ('\n' :: s) ('\n' :: t)
  /-- An LF is written as CR LF. -/
  | crlf {s t} (h : SameLines s t) : SameLines ('\n' :: s) ('\r' :: '\n' :: t)
  /-- An LF is written as CR. -/
  | cr {s t} (h : SameLines s t) (ht : t.head? ≠ some '\n') : SameLines ('\n' :: s) ('\r' :: t)

/-- The line ends of a text without CR are written in some way exactly when normalizing gives the
text back. -/
theorem Text.sameLines_iff {s t : List Char} (hs : '\r' ∉ s) :
    SameLines s t ↔ normalizeLines t = s := by
  constructor
  · intro h
    induction h with
    | nil => rfl
    | @char c s t _ _ ih =>
      rw [List.mem_cons, not_or] at hs
      have hcr : c = '\r' → False := fun hc => hs.1 hc.symm
      rw [normalizeLines.eq_4 c t (fun _ hc _ => hcr hc) hcr, ih hs.2]
    | lf _ ih =>
      rw [normalizeLines.eq_4 '\n' _ (by simp) (by decide), ih (List.not_mem_of_not_mem_cons hs)]
    | crlf _ ih => rw [normalizeLines, ih (List.not_mem_of_not_mem_cons hs)]
    | @cr s t _ ht ih =>
      -- What follows starts with no LF, so the CR is not read as the start of a CR LF.
      have hlf : ∀ r, t = '\n' :: r → False := by
        rintro r rfl
        exact ht rfl
      rw [normalizeLines.eq_3 t hlf, ih (List.not_mem_of_not_mem_cons hs)]
  · rintro rfl
    clear hs
    fun_induction normalizeLines t with
    | case1 => exact .nil
    | case2 t ih => exact .crlf ih
    | case3 t hlf ih =>
      refine .cr ih fun hhead => ?_
      obtain ⟨r, rfl⟩ := List.head?_eq_some_iff.1 hhead
      exact hlf r rfl
    | case4 c t _ _ ih =>
      by_cases hc : c = '\n'
      · subst hc
        exact .lf ih
      · exact .char hc ih

/-! ## Readers of normalized texts -/

/-- A document is read from its normalized text. -/
theorem Xml.parse_congr {text other : String}
    (h : normalizeLines other.toList = normalizeLines text.toList) : parse other = parse text := by
  rw [parse, parse, h]

/-- A manifest is read from its normalized text, also inside the made-up root. -/
theorem Manifest.parse_congr {text other : String}
    (h : normalizeLines other.toList = normalizeLines text.toList) : parse other = parse text := by
  have hwrap : normalizeLines (wrap other).toList = normalizeLines (wrap text).toList := by
    have hinside := normalizeLines_inside wrapperName_ok.isName
    calc normalizeLines (wrap other).toList
        = ['<'] ++ wrapperName.toList ++ ['>'] ++ normalizeLines other.toList ++
            (['<', '/'] ++ wrapperName.toList ++ ['>']) := hinside other
      _ = ['<'] ++ wrapperName.toList ++ ['>'] ++ normalizeLines text.toList ++
            (['<', '/'] ++ wrapperName.toList ++ ['>']) := by rw [h]
      _ = normalizeLines (wrap text).toList := (hinside text).symm
  rw [parse, parse, Xml.parse_congr h, Xml.parse_congr hwrap]

namespace Generation

/-- However the line ends of a text without CR are written, it is the same document and the same
manifest, with the same parameters in every namespace and the same class with all settings; and where
it is none of these, the fault and its place are the same. -/
theorem generateFrom_of_sameLines {text other : String} (hcr : '\r' ∉ text.toList)
    (h : SameLines text.toList other.toList) :
    Xml.parse other = Xml.parse text ∧ Manifest.parse other = Manifest.parse text ∧
      (∀ namespaceSetting,
        Manifest.parameters other namespaceSetting = Manifest.parameters text namespaceSetting) ∧
      ∀ settings, generateFrom other settings = generateFrom text settings := by
  have hother : normalizeLines other.toList = text.toList := (sameLines_iff hcr).1 h
  have htext : normalizeLines text.toList = text.toList := (Normalizes.of_not_mem hcr).eq
  have hlines := hother.trans htext.symm
  have hmanifest := Manifest.parse_congr hlines
  have hparameters : ∀ namespaceSetting, Manifest.parameters other namespaceSetting =
      Manifest.parameters text namespaceSetting := fun namespaceSetting => by
    rw [Manifest.parameters, Manifest.parameters, hmanifest]
  refine ⟨Xml.parse_congr hlines, hmanifest, hparameters, fun settings => ?_⟩
  unfold generateFrom
  split
  · rfl
  · next settings' _ => rw [extract, extract, hparameters]

/-- Two line ends inside a character data section, the first of them a CR and the second a CR LF, and
others around it: both faults of the text, by itself and inside the made-up root, are found on the
fifth line. -/
theorem generateFrom_of_mixed_lines :
    let text := "<b>\n<![CDATA[\n\n]]>\n<c"
    let other := "<b>\r<![CDATA[\r\r\n]]>\n<c"
    let fault : Manifest.Fault :=
      ⟨⟨.unterminatedTag "c", ⟨5, 3⟩⟩, ⟨.missingSpace, ⟨5, 3⟩⟩⟩
    '\r' ∉ text.toList ∧ SameLines text.toList other.toList ∧
      Manifest.parse other = .error fault ∧
      generateFrom other Settings.default = generateFrom text Settings.default := by
  intro text other fault
  have hcr : '\r' ∉ text.toList := by decide
  have hlines : SameLines text.toList other.toList :=
    (sameLines_iff hcr).2 (by decide)
  obtain ⟨-, hmanifest, -, hclass⟩ := generateFrom_of_sameLines hcr hlines
  have hfault : Manifest.parse text = .error fault := by decide +kernel
  exact ⟨hcr, hlines, hmanifest.trans hfault, hclass _⟩

end Generation

end ParamClass
