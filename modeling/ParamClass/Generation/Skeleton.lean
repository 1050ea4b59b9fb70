import ParamClass.Emission.Template
import ParamClass.Generation.Member

/-!
# The text of the class

The class is a fixed skeleton with two slots: one assignment for each member in the constructor,
and one property for each member in the body.
-/

namespace ParamClass.Generation

open Emission

/-- The skeleton of the class. -/
def skeleton : List Fragment := [
  .line "namespace Skyline.DataMiner.Automation",
  .block [
    .line "using System;",
    .line "using System.Linq;",
    .blank,
    .line "using Newtonsoft.Json;",
    .blank,
    .line "using Skyline.DataMiner.Automation;",
    .line "using Skyline.DataMiner.Utils.InteractiveAutomationScript;",
    .blank,
    .line "public class ScriptContext",
    .block [
      .line "public ScriptContext(IEngine engine)",
      .block [
        .line "Engine = engine;",
        .blank,
        .slot .constructorAssignments],
      .blank,
      .line "public IEngine Engine \x7b get; \x7d",
      .slot .parameterProperties,
      .blank,
      .line "private static string[] GetScriptParam(string name)",
      .block [
        .line "var rawValue = Engine.GetScriptParam(name)?.Value;",
        .line "if (String.IsNullOrEmpty(rawValue))",
        .block [
          .line "throw new ArgumentException($\"Script Param '\x7bname\x7d' cannot be left empty.\");"],
        .blank,
        .line "if (IsJsonArray(rawValue))",
        .block [.line "return JsonConvert.DeserializeObject<string[]>(rawValue);"],
        .line "else",
        .block [.line "return new[] \x7b rawValue \x7d;"]],
      .blank,
      .line "private static bool IsJsonArray(string json)",
      .block [
        .line "try",
        .block [.line "JArray.Parse(json);", .line "return true;"],
        .line "catch",
        .block [.line "return false;"]]]]]

/-- The line that looks a member up in the constructor. -/
def Member.assignment (m : Member) : String :=
  m.identifier ++ " = GetScriptParam(\"" ++ m.description ++ "\").Single();"

/-- The line that declares a member. -/
def Member.property (m : Member) : String :=
  "public string " ++ m.identifier ++ " \x7b get; \x7d"

/-- Writes the lines of the members into a slot. -/
def fillSlot (ms : List Member) (slot : Slot) (buffer : Buffer) : Buffer :=
  match slot with
  | .constructorAssignments => ms.foldl (fun b m => b.line m.assignment) buffer
  | .parameterProperties => ms.foldl (fun b m => b.blank.line m.property) buffer

/-- The text of the class with these members. -/
def classText (style : Style) (ms : List Member) : Except Unbalanced String :=
  (render (fillSlot ms) style skeleton).buffer.finish

end ParamClass.Generation
