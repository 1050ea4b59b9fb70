import ParamClass.Proofs.Emission.Layout
import ParamClass.Proofs.Generation.Acceptance

/-!
# The layout of the class

The class of accepted parameters, line by line and without the skeleton: fixed lines, one assignment
for each member in the constructor, and an empty line and a property for each member after the
property `Engine`. `generate_eq_layout_iff` says that this is the text that is generated, for every
style and every number of parameters.
-/

namespace ParamClass.Generation

open Emission

/-- The lines before the assignments. -/
def openingLines : List Line := [
  .code 0 "namespace Skyline.DataMiner.Automation",
  .code 0 "\x7b",
  .code 1 "using System;",
  .code 1 "using System.Linq;",
  .blank,
  .code 1 "using Newtonsoft.Json;",
  .blank,
  .code 1 "using Skyline.DataMiner.Automation;",
  .code 1 "using Skyline.DataMiner.Utils.InteractiveAutomationScript;",
  .blank,
  .code 1 "public class ScriptContext",
  .code 1 "\x7b",
  .code 2 "public ScriptContext(IEngine engine)",
  .code 2 "\x7b",
  .code 3 "Engine = engine;",
  .blank]

/-- The lines between the assignments and the properties of the members. -/
def middleLines : List Line := [
  .code 2 "\x7d",
  .blank,
  .code 2 "public IEngine Engine \x7b get; \x7d"]

/-- The lines after the properties of the members. -/
def closingLines : List Line := [
  .blank,
  .code 2 "private static string[] GetScriptParam(string name)",
  .code 2 "\x7b",
  .code 3 "var rawValue = Engine.GetScriptParam(name)?.Value;",
  .code 3 "if (String.IsNullOrEmpty(rawValue))",
  .code 3 "\x7b",
  .code 4 "throw new ArgumentException($\"Script Param '\x7bname\x7d' cannot be left empty.\");",
  .code 3 "\x7d",
  .blank,
  .code 3 "if (IsJsonArray(rawValue))",
  .code 3 "\x7b",
  .code 4 "return JsonConvert.DeserializeObject<string[]>(rawValue);",
  .code 3 "\x7d",
  .code 3 "else",
  .code 3 "\x7b",
  .code 4 "return new[] \x7b rawValue \x7d;",
  .code 3 "\x7d",
  .code 2 "\x7d",
  .blank,
  .code 2 "private static bool IsJsonArray(string json)",
  .code 2 "\x7b",
  .code 3 "try",
  .code 3 "\x7b",
  .code 4 "JArray.Parse(json);",
  .code 4 "return true;",
  .code 3 "\x7d",
  .code 3 "catch",
  .code 3 "\x7b",
  .code 4 "return false;",
  .code 3 "\x7d",
  .code 2 "\x7d",
  .code 1 "\x7d",
  .code 0 "\x7d"]

/-- The line that assigns a member in the constructor. -/
def assignmentLine (m : Member) : Line :=
  .code 3 (m.identifier ++ " = GetScriptParam(\"" ++ m.description ++ "\").Single();")

/-- The lines that declare a member. -/
def propertyLines (m : Member) : List Line :=
  [.blank, .code 2 ("public string " ++ m.identifier ++ " \x7b get; \x7d")]

/-- The lines of the class with these members. -/
def classLines (ms : List Member) : List Line :=
  openingLines ++ ms.map assignmentLine ++ middleLines ++ ms.flatMap propertyLines ++ closingLines

/-! ## The skeleton with its slots filled -/

/-- The lines of the members in a slot at a depth. -/
def slotLines (ms : List Member) : Slot → Nat → List Line
  | .constructorAssignments, depth => ms.map fun m => .code depth m.assignment
  | .parameterProperties, depth => ms.flatMap fun m => [.blank, .code depth m.property]

/-- Filling a slot writes the lines of the members. -/
theorem fillsWith_fillSlot (ms : List Member) : FillsWith (fillSlot ms) (slotLines ms) := by
  -- Each member writes its lines at the depth of the slot, which they leave as it is.
  have hfold : ∀ (write : Buffer → Member → Buffer) (lines : Nat → Member → List Line),
      (∀ b m, write b m = b.write (lines b.depth m)) →
      ∀ b, ms.foldl write b = b.write (ms.flatMap (lines b.depth)) := by
    intro write lines hwrite b
    induction ms generalizing b with
    | nil => rw [List.foldl_nil, List.flatMap_nil, b.write_nil]
    | cons m ms ih =>
      rw [List.foldl_cons, ih, hwrite, Buffer.write_depth, List.flatMap_cons, Buffer.write_append]
  intro slot b
  cases slot with
  | constructorAssignments =>
    rw [fillSlot, hfold _ (fun depth m => [.code depth m.assignment])]
    · rw [slotLines, List.map_eq_flatMap]
    · exact fun b m => b.line_eq_write m.assignment
  | parameterProperties =>
    rw [fillSlot, hfold _ (fun depth m => [.blank, .code depth m.property])]
    · rfl
    · intro b m
      rw [← List.singleton_append, Buffer.write_append, ← Buffer.blank_eq_write, Buffer.line_eq_write,
        Buffer.blank_depth]

/-- The skeleton with the lines of the members in its slots is the class. -/
theorem linesOf_skeleton (ms : List Member) : linesOf (slotLines ms) 0 skeleton = classLines ms := by
  simp only [skeleton, linesOf, Fragment.lines, slotLines, classLines, openingLines, middleLines,
    closingLines, List.nil_append, List.cons_append, List.append_nil, List.append_assoc]
  rfl

/-- The text of the class is the layout of its lines. -/
theorem classText_eq_layout (style : Style) (ms : List Member) :
    classText style ms = .ok (layout style (classLines ms)) := by
  rw [classText, finish_render (fillsWith_fillSlot ms), linesOf_skeleton]

/-! ## The class of some parameters -/

/-- Members that are found after those of other parameters belong to all of the parameters. -/
theorem membersOf_of_membersAfter {before ps : List Parameter} {ms ms' : List Member}
    (h : MembersOf before ms) (hm : membersAfter ms ps = .ok ms') : MembersOf (before ++ ps) ms' := by
  induction ps generalizing before ms with
  | nil =>
    obtain rfl := Except.ok.inj hm
    rwa [List.append_nil]
  | cons p ps ih =>
    rw [membersAfter] at hm
    split at hm
    · exact absurd hm (by simp)
    · next m hmember =>
      have hall := ih (h.concat hmember) hm
      rwa [List.append_assoc, List.singleton_append] at hall

/-- Parameters have one list of members at most. -/
theorem MembersOf.unique {ps : List Parameter} {ms ms' : List Member} (h : MembersOf ps ms)
    (h' : MembersOf ps ms') : ms = ms' := by
  induction h generalizing ms' with
  | nil => exact (List.forall₂_nil_left_iff.1 h').symm
  | @cons p m _ _ hp _ ih =>
    obtain ⟨m', ms', hp', hms', rfl⟩ := List.forall₂_cons_left_iff.1 h'
    have hdescription : m.description = m'.description := Option.some.inj (hp.1.symm.trans hp'.1)
    have hidentifier : m.identifier = m'.identifier := by
      apply Option.some.inj
      rw [← hp.2, ← hp'.2, hdescription]
    have hm : m = m' := by
      rcases m with ⟨identifier, description⟩
      rw [Member.mk.injEq]
      exact ⟨hidentifier, hdescription⟩
    rw [hm, ih hms']

/-- The class that is generated is the layout of the lines of the members, one for each parameter. -/
theorem layout_of_generate {parameters : List Parameter} {settings : Settings} {text : String}
    (h : generate parameters settings = .ok text) :
    ∃ ms, MembersOf parameters ms ∧ text = layout settings.style (classLines ms) := by
  unfold generate at h
  split at h
  · exact absurd h (by simp)
  · next ms hms =>
    rw [classText_eq_layout] at h
    exact ⟨ms, membersOf_of_membersAfter .nil hms, (Except.ok.inj h).symm⟩

/-- A class is generated exactly for accepted parameters. -/
theorem exists_generate_iff_accepted {parameters : List Parameter} {settings : Settings} :
    (∃ text, generate parameters settings = .ok text) ↔ Accepted parameters := by
  rw [exists_generate_iff]
  exact exists_membersAfter_iff .nil ⟨by simp, by decide⟩

/-- A text is generated exactly for accepted parameters, and it is the layout of the lines of the
class: the lines of the skeleton, of which there are 52, an assignment for each parameter after the
line that assigns `Engine`, and a property for each after the property `Engine`. -/
theorem generate_eq_layout_iff (parameters : List Parameter) (settings : Settings) :
    (∀ text, generate parameters settings = .ok text ↔
      Accepted parameters ∧ ∃ ms, MembersOf parameters ms ∧
        text = layout settings.style (openingLines ++ ms.map assignmentLine ++ middleLines ++
          ms.flatMap propertyLines ++ closingLines)) ∧
    openingLines ++ middleLines ++ closingLines = linesOf (fun _ _ => []) 0 skeleton ∧
    (openingLines ++ middleLines ++ closingLines).length = 52 := by
  refine ⟨fun text => ⟨?_, ?_⟩, ?_, rfl⟩
  · intro h
    exact ⟨exists_generate_iff_accepted.1 ⟨text, h⟩, layout_of_generate h⟩
  · rintro ⟨haccepted, ms, hms, rfl⟩
    obtain ⟨text, htext⟩ := exists_generate_iff_accepted.2 haccepted
    obtain ⟨ms', hms', rfl⟩ := layout_of_generate htext
    -- What is generated is written for some members, and there are no others.
    rw [htext, hms.unique hms']
    rfl
  · have hempty : slotLines [] = fun _ _ => [] := by
      funext slot depth
      cases slot <;> rfl
    rw [← hempty, linesOf_skeleton]
    rfl

end ParamClass.Generation
