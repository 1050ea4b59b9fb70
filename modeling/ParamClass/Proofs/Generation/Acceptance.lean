import Mathlib.Data.List.Forall2
import Mathlib.Data.List.Nodup
import ParamClass.Generation.Basic
import ParamClass.Proofs.Emission.Balance

/-!
# Which parameters are accepted

A class is generated exactly when every parameter has a description that gives an identifier, and
the identifiers are distinct from each other and from the built-in members. Otherwise the first
parameter that breaks this is reported, with the first reason that applies to it. The settings have
no part in that: rendering cannot fail.
-/

namespace ParamClass.Generation

open Emission

/-! ## What is accepted and what is not -/

/-- The identifier of a parameter, if its description gives one. -/
def identifierOf? (p : Parameter) : Option String := p.description.bind identifier?

/-- The identifier is the one that the description gives. -/
theorem identifierOf?_eq_some {p : Parameter} {description identifier : String}
    (hd : p.description = some description) (hi : identifier? description = some identifier) :
    identifierOf? p = some identifier := by
  rw [identifierOf?, hd, Option.bind_some, hi]

/-- The parameters can all be members of one class. -/
structure Accepted (parameters : List Parameter) : Prop where
  /-- Each has a description that gives an identifier. -/
  described : ∀ p ∈ parameters, ∃ description, p.description = some description ∧
    ∃ identifier, identifier? description = some identifier
  /-- No identifier is built in or occurs twice. -/
  distinct : (builtInMembers ++ parameters.filterMap identifierOf?).Nodup

/-- A parameter cannot be a member after the parameters `before`. Each reason leaves out those before
it. -/
inductive Breaks (before : List Parameter) (p : Parameter) : Reason → Prop where
  /-- It has no description. -/
  | missingDescription (h : p.description = none) : Breaks before p .missingDescription
  /-- Its description gives no identifier. -/
  | noIdentifier {description} (hd : p.description = some description)
      (h : identifier? description = none) : Breaks before p (.noIdentifier description)
  /-- Its identifier is built in. -/
  | builtIn {identifier} (hi : identifierOf? p = some identifier) (h : identifier ∈ builtInMembers) :
      Breaks before p (.builtIn identifier)
  /-- Its identifier is that of the parameter with index `j`, and of none before that one. -/
  | duplicate {identifier j} (hi : identifierOf? p = some identifier)
      (hbuiltIn : identifier ∉ builtInMembers)
      (h : (before[j]?).bind identifierOf? = some identifier)
      (hleast : ∀ k < j, (before[k]?).bind identifierOf? ≠ some identifier) :
      Breaks before p (.duplicate identifier (j + 1))

/-- The first parameter that cannot be a member after those before it is rejected, with its position
and its `id`. -/
def FirstRejected (parameters : List Parameter) (rejection : Rejection) : Prop :=
  ∃ i p reason, parameters[i]? = some p ∧ Breaks (parameters.take i) p reason ∧
    (∀ k < i, ∀ q, parameters[k]? = some q → ∀ reason, ¬ Breaks (parameters.take k) q reason) ∧
    rejection = ⟨i + 1, p.id, reason⟩

/-! ## One parameter -/

/-- The members are those of the parameters, one for one. -/
def MembersOf : List Parameter → List Member → Prop :=
  List.Forall₂ fun p m => p.description = some m.description ∧
    identifier? m.description = some m.identifier

/-- A member has the identifier of its parameter. -/
theorem MembersOf.getElem?_identifier {before : List Parameter} {ms : List Member}
    (h : MembersOf before ms) (j : Nat) :
    (before[j]?).bind identifierOf? = (ms[j]?).map (·.identifier) := by
  induction h generalizing j with
  | nil => rfl
  | @cons p m _ _ hp _ ih =>
    cases j with
    | zero =>
      show identifierOf? p = some m.identifier
      exact identifierOf?_eq_some hp.1 hp.2
    | succ j => exact ih j

/-- The identifiers of the members are those of the parameters. -/
theorem MembersOf.map_identifier {before : List Parameter} {ms : List Member}
    (h : MembersOf before ms) :
    ms.map (·.identifier) = before.filterMap identifierOf? := by
  induction h with
  | nil => rfl
  | @cons p m _ _ hp _ ih =>
    have hidentifier := identifierOf?_eq_some hp.1 hp.2
    rw [List.map_cons, List.filterMap_cons_some hidentifier, ih]

/-- The first member of a name belongs to the first parameter with this identifier. -/
theorem MembersOf.findIdx?_eq_some_iff {before : List Parameter} {ms : List Member}
    (h : MembersOf before ms) {identifier : String} {j : Nat} :
    ms.findIdx? (·.identifier == identifier) = some j ↔
      (before[j]?).bind identifierOf? = some identifier ∧
        ∀ k < j, (before[k]?).bind identifierOf? ≠ some identifier := by
  rw [List.findIdx?_eq_some_iff_getElem, h.getElem?_identifier, Option.map_eq_some_iff]
  constructor
  · rintro ⟨hj, heq, hleast⟩
    refine ⟨⟨ms[j], List.getElem?_eq_getElem hj, beq_iff_eq.1 heq⟩, ?_⟩
    intro k hk
    rw [h.getElem?_identifier, List.getElem?_eq_getElem (Nat.lt_trans hk hj), Option.map_some]
    exact fun hsome => hleast k hk (beq_iff_eq.2 (Option.some.inj hsome))
  · rintro ⟨⟨m, hm, heq⟩, hleast⟩
    obtain ⟨hj, rfl⟩ := List.getElem?_eq_some_iff.1 hm
    refine ⟨hj, beq_iff_eq.2 heq, ?_⟩
    intro k hk hsame
    apply hleast k hk
    rw [h.getElem?_identifier, List.getElem?_eq_getElem (Nat.lt_trans hk hj), Option.map_some,
      beq_iff_eq.1 hsame]

/-- No member has a name that no parameter has as its identifier. -/
theorem MembersOf.findIdx?_eq_none_iff {before : List Parameter} {ms : List Member}
    (h : MembersOf before ms) {identifier : String} :
    ms.findIdx? (·.identifier == identifier) = none ↔
      identifier ∉ before.filterMap identifierOf? := by
  rw [List.findIdx?_eq_none_iff, ← h.map_identifier, List.mem_map]
  simp

/-- A parameter that is refused breaks something, and that is the reason. -/
theorem breaks_of_member {before : List Parameter} {ms : List Member} (h : MembersOf before ms)
    {p : Parameter} {reason : Reason} (hr : member ms p = .error reason) :
    Breaks before p reason := by
  unfold member at hr
  split at hr
  · next hd =>
    obtain rfl := Except.error.inj hr
    exact .missingDescription hd
  · next description hd =>
    split at hr
    · next hi =>
      obtain rfl := Except.error.inj hr
      exact .noIdentifier hd hi
    · next identifier hi =>
      have hidentifier := identifierOf?_eq_some hd hi
      split_ifs at hr with hbuiltIn
      · obtain rfl := Except.error.inj hr
        exact .builtIn hidentifier hbuiltIn
      · split at hr
        · next j hj =>
          obtain rfl := Except.error.inj hr
          obtain ⟨hsame, hleast⟩ := h.findIdx?_eq_some_iff.1 hj
          exact .duplicate hidentifier hbuiltIn hsame hleast
        · exact absurd hr (by simp)

/-- A parameter that breaks something is refused for that reason. -/
theorem Breaks.member_eq {before : List Parameter} {ms : List Member} {p : Parameter}
    {reason : Reason} (hb : Breaks before p reason) (h : MembersOf before ms) :
    member ms p = .error reason := by
  cases hb with
  | missingDescription hd => rw [member, hd]
  | noIdentifier hd hi =>
    rw [member, hd]
    dsimp only
    rw [hi]
  | builtIn hi hbuiltIn =>
    obtain ⟨description, hd, hi⟩ := Option.bind_eq_some_iff.1 hi
    rw [member, hd]
    dsimp only
    rw [hi]
    exact if_pos hbuiltIn
  | duplicate hi hbuiltIn hsame hleast =>
    obtain ⟨description, hd, hi⟩ := Option.bind_eq_some_iff.1 hi
    rw [member, hd]
    dsimp only
    rw [hi]
    dsimp only
    rw [if_neg hbuiltIn, h.findIdx?_eq_some_iff.2 ⟨hsame, hleast⟩]

/-- A parameter is refused exactly when it breaks something, and for that reason. -/
theorem member_eq_error_iff {before : List Parameter} {ms : List Member} (h : MembersOf before ms)
    {p : Parameter} {reason : Reason} : member ms p = .error reason ↔ Breaks before p reason :=
  ⟨breaks_of_member h, fun hb => hb.member_eq h⟩

/-- A parameter gives a member exactly when its description gives an identifier that is neither
built in nor taken. -/
theorem member_eq_ok_iff {before : List Parameter} {ms : List Member} (h : MembersOf before ms)
    {p : Parameter} {m : Member} :
    member ms p = .ok m ↔ p.description = some m.description ∧
      identifier? m.description = some m.identifier ∧ m.identifier ∉ builtInMembers ∧
      m.identifier ∉ before.filterMap identifierOf? := by
  constructor
  · intro hm
    unfold member at hm
    split at hm
    · exact absurd hm (by simp)
    · next description hd =>
      split at hm
      · exact absurd hm (by simp)
      · next identifier hi =>
        split_ifs at hm with hbuiltIn
        split at hm
        · exact absurd hm (by simp)
        · next hnone =>
          obtain rfl := Except.ok.inj hm
          exact ⟨hd, hi, hbuiltIn, h.findIdx?_eq_none_iff.1 hnone⟩
  · rintro ⟨hd, hi, hbuiltIn, hnone⟩
    rw [member, hd]
    dsimp only
    rw [hi]
    dsimp only
    rw [if_neg hbuiltIn, h.findIdx?_eq_none_iff.2 hnone]

/-- A member more belongs to a parameter more. -/
theorem MembersOf.concat {before : List Parameter} {ms : List Member} (h : MembersOf before ms)
    {p : Parameter} {m : Member} (hm : member ms p = .ok m) :
    MembersOf (before ++ [p]) (ms ++ [m]) := by
  obtain ⟨hd, hi, -, -⟩ := (member_eq_ok_iff h).1 hm
  exact List.rel_append h (.cons ⟨hd, hi⟩ .nil)

/-- What is accepted is accepted without its last parameters. -/
theorem Accepted.of_append {ps qs : List Parameter} (h : Accepted (ps ++ qs)) : Accepted ps where
  described p hp := h.described p (List.mem_append_left qs hp)
  distinct := by
    have hdistinct := h.distinct
    rw [List.filterMap_append, ← List.append_assoc] at hdistinct
    exact hdistinct.of_append_left

/-- One parameter more is accepted exactly when it gives a member. -/
theorem accepted_concat_iff {before : List Parameter} {ms : List Member} (h : MembersOf before ms)
    {p : Parameter} :
    Accepted (before ++ [p]) ↔ Accepted before ∧ ∃ m, member ms p = .ok m := by
  constructor
  · intro haccepted
    obtain ⟨description, hd, identifier, hi⟩ := haccepted.described p (by simp)
    have hidentifier := identifierOf?_eq_some hd hi
    have hdistinct := haccepted.distinct
    rw [List.filterMap_append, List.filterMap_cons_some hidentifier, List.filterMap_nil,
      ← List.append_assoc, ← List.concat_eq_append, List.nodup_concat, List.mem_append,
      not_or] at hdistinct
    refine ⟨haccepted.of_append, ⟨identifier, description⟩, ?_⟩
    exact (member_eq_ok_iff h).2 ⟨hd, hi, hdistinct.1.1, hdistinct.1.2⟩
  · rintro ⟨haccepted, m, hm⟩
    obtain ⟨hd, hi, hbuiltIn, hnone⟩ := (member_eq_ok_iff h).1 hm
    have hidentifier := identifierOf?_eq_some hd hi
    constructor
    · rw [List.forall_mem_append, List.forall_mem_singleton]
      exact ⟨haccepted.described, _, hd, _, hi⟩
    · rw [List.filterMap_append, List.filterMap_cons_some hidentifier, List.filterMap_nil,
        ← List.append_assoc, ← List.concat_eq_append, List.nodup_concat, List.mem_append, not_or]
      exact ⟨⟨hbuiltIn, hnone⟩, haccepted.distinct⟩

/-! ## All parameters -/

/-- After members of accepted parameters, the rest gives members exactly when all are accepted. -/
theorem exists_membersAfter_iff {before ps : List Parameter} {ms : List Member}
    (h : MembersOf before ms) (hbefore : Accepted before) :
    (∃ ms', membersAfter ms ps = .ok ms') ↔ Accepted (before ++ ps) := by
  induction ps generalizing before ms with
  | nil =>
    rw [List.append_nil]
    exact iff_of_true ⟨ms, rfl⟩ hbefore
  | cons p ps ih =>
    rw [membersAfter]
    split
    · next reason hr =>
      refine iff_of_false (by simp) fun haccepted => ?_
      rw [← List.singleton_append, ← List.append_assoc] at haccepted
      obtain ⟨-, m, hm⟩ := (accepted_concat_iff h).1 haccepted.of_append
      rw [hr] at hm
      exact absurd hm (by simp)
    · next m hm =>
      rw [ih (h.concat hm) ((accepted_concat_iff h).2 ⟨hbefore, m, hm⟩), List.append_assoc]
      rfl

/-- Of some parameters after others, the first that breaks something is rejected. -/
def RejectedAfter (before ps : List Parameter) (rejection : Rejection) : Prop :=
  ∃ i p reason, ps[i]? = some p ∧ Breaks (before ++ ps.take i) p reason ∧
    (∀ k < i, ∀ q, ps[k]? = some q → ∀ reason, ¬ Breaks (before ++ ps.take k) q reason) ∧
    rejection = ⟨before.length + i + 1, p.id, reason⟩

/-- Where the next parameter breaks something, it is the first. -/
theorem rejectedAfter_cons_of_breaks {before ps : List Parameter} {p : Parameter} {reason : Reason}
    (h : Breaks before p reason) (hunique : ∀ r, Breaks before p r → r = reason)
    {rejection : Rejection} :
    RejectedAfter before (p :: ps) rejection ↔ rejection = ⟨before.length + 1, p.id, reason⟩ := by
  constructor
  · rintro ⟨i, q, reason', hq, hbreaks, hleast, rfl⟩
    rcases i with _ | i
    · obtain rfl := Option.some.inj hq
      rw [List.take_zero, List.append_nil] at hbreaks
      rw [hunique reason' hbreaks, Nat.add_zero]
    · -- Index `0` would have been less.
      have hzero := hleast 0 (Nat.succ_pos i) p rfl reason
      rw [List.take_zero, List.append_nil] at hzero
      exact absurd h hzero
  · rintro rfl
    refine ⟨0, p, reason, rfl, ?_, by simp, rfl⟩
    rwa [List.take_zero, List.append_nil]

/-- Where the next parameter breaks nothing, the first is one of those after it. -/
theorem rejectedAfter_cons_of_fine {before ps : List Parameter} {p : Parameter}
    (h : ∀ reason, ¬ Breaks before p reason) {rejection : Rejection} :
    RejectedAfter before (p :: ps) rejection ↔ RejectedAfter (before ++ [p]) ps rejection := by
  have htake : ∀ k, before ++ (p :: ps).take (k + 1) = before ++ [p] ++ ps.take k := by
    intro k
    rw [List.take_succ_cons, List.append_assoc, List.singleton_append]
  have hposition : ∀ i, (before ++ [p]).length + i + 1 = before.length + (i + 1) + 1 := by
    intro i
    rw [List.length_append, List.length_singleton]
    omega
  constructor
  · rintro ⟨i, q, reason, hq, hbreaks, hleast, rfl⟩
    rcases i with _ | i
    · obtain rfl := Option.some.inj hq
      rw [List.take_zero, List.append_nil] at hbreaks
      exact absurd hbreaks (h reason)
    · rw [htake] at hbreaks
      refine ⟨i, q, reason, hq, hbreaks, ?_, by rw [hposition]⟩
      intro k hk q' hq' reason'
      rw [← htake]
      exact hleast (k + 1) (Nat.succ_lt_succ hk) q' hq' reason'
  · rintro ⟨i, q, reason, hq, hbreaks, hleast, rfl⟩
    refine ⟨i + 1, q, reason, hq, by rwa [htake], ?_, by rw [hposition]⟩
    intro k hk q' hq' reason'
    rcases k with _ | k
    · obtain rfl := Option.some.inj hq'
      rw [List.take_zero, List.append_nil]
      exact h reason'
    · rw [htake]
      exact hleast k (Nat.lt_of_succ_lt_succ hk) q' hq' reason'

/-- After members of some parameters, the first of the rest that breaks something is rejected. -/
theorem membersAfter_eq_error_iff {before ps : List Parameter} {ms : List Member}
    (h : MembersOf before ms) {rejection : Rejection} :
    membersAfter ms ps = .error rejection ↔ RejectedAfter before ps rejection := by
  induction ps generalizing before ms with
  | nil => simp [membersAfter, RejectedAfter]
  | cons p ps ih =>
    rw [membersAfter]
    split
    · next reason hr =>
      have hbreaks := (member_eq_error_iff h).1 hr
      have hunique : ∀ r, Breaks before p r → r = reason := by
        intro r hbreaks'
        rw [← member_eq_error_iff h, hr] at hbreaks'
        exact (Except.error.inj hbreaks').symm
      rw [rejectedAfter_cons_of_breaks hbreaks hunique, Except.error.injEq, h.length_eq.symm, eq_comm]
    · next m hm =>
      have hfine : ∀ reason, ¬ Breaks before p reason := by
        intro reason hbreaks
        rw [← member_eq_error_iff h, hm] at hbreaks
        exact absurd hbreaks (by simp)
      rw [rejectedAfter_cons_of_fine hfine]
      exact ih (h.concat hm)

/-! ## The class -/

/-- The lines of the members are written at the depth of their slot. -/
theorem balanced_fillSlot (ms : List Member) : Balanced (fillSlot ms) := by
  have hfold : ∀ (write : Buffer → Member → Buffer), (∀ b m, (write b m).depth = b.depth) →
      ∀ b, (ms.foldl write b).depth = b.depth := by
    intro write hwrite b
    induction ms generalizing b with
    | nil => rfl
    | cons m ms ih => rw [List.foldl_cons, ih, hwrite]
  intro slot b
  cases slot with
  | constructorAssignments => exact hfold _ (fun b m => b.line_depth m.assignment) b
  | parameterProperties => exact hfold _ (fun b m => b.blank.line_depth m.property) b

/-- A class is generated when there are members, and otherwise the failure is that of a parameter. -/
theorem generate_cases (parameters : List Parameter) (settings : Settings) :
    (∃ rejection, members parameters = .error rejection ∧
      generate parameters settings = .error (.parameter rejection)) ∨
    ∃ ms text, members parameters = .ok ms ∧ generate parameters settings = .ok text := by
  rcases hms : members parameters with rejection | ms
  · exact .inl ⟨rejection, rfl, by rw [generate, hms]⟩
  · obtain ⟨text, htext⟩ := exists_finish_render (balanced_fillSlot ms) settings.style skeleton
    exact .inr ⟨ms, text, rfl, by rw [generate, hms]; dsimp only; rw [classText, htext]⟩

/-- A class is generated exactly when there are members. -/
theorem exists_generate_iff {parameters : List Parameter} {settings : Settings} :
    (∃ text, generate parameters settings = .ok text) ↔ ∃ ms, members parameters = .ok ms := by
  rcases generate_cases parameters settings with ⟨r, hr, hg⟩ | ⟨ms, text, hms, hg⟩
  · simp [hr, hg]
  · simp [hms, hg]

/-- No class is generated exactly when a parameter is rejected, and the failure is that. -/
theorem generate_eq_error_iff {parameters : List Parameter} {settings : Settings}
    {failure : Failure} :
    generate parameters settings = .error failure ↔
      ∃ rejection, members parameters = .error rejection ∧ failure = .parameter rejection := by
  rcases generate_cases parameters settings with ⟨r, hr, hg⟩ | ⟨ms, text, hms, hg⟩
  · simp [hr, hg, eq_comm]
  · simp [hms, hg]

/-- A class is generated exactly for parameters that are accepted. For others the failure is that of
the first parameter that breaks something, and no other failure is possible. Whether a class is
generated does not depend on the settings. -/
theorem generate_outcome (parameters : List Parameter) (settings : Settings) :
    ((∃ text, generate parameters settings = .ok text) ↔ Accepted parameters) ∧
    (∀ failure, generate parameters settings = .error failure ↔
      ∃ rejection, FirstRejected parameters rejection ∧ failure = .parameter rejection) ∧
    ∀ settings', (generate parameters settings).isOk = (generate parameters settings').isOk := by
  have hnone : MembersOf [] [] := .nil
  have hempty : Accepted [] := ⟨by simp, by decide⟩
  have hok : ∀ settings : Settings,
      (∃ text, generate parameters settings = .ok text) ↔ Accepted parameters := by
    intro settings
    rw [exists_generate_iff]
    exact exists_membersAfter_iff hnone hempty
  refine ⟨hok settings, ?_, ?_⟩
  · intro failure
    have hfirst : ∀ rejection, members parameters = .error rejection ↔
        FirstRejected parameters rejection := by
      intro rejection
      rw [members, membersAfter_eq_error_iff hnone, RejectedAfter, FirstRejected]
      simp
    rw [generate_eq_error_iff]
    exact exists_congr fun rejection => and_congr_left' (hfirst rejection)
  · intro settings'
    have hisOk : ∀ x : Except Failure String, x.isOk = true ↔ ∃ text, x = .ok text := by
      intro x
      cases x <;> simp [Except.isOk, Except.toBool]
    rw [Bool.eq_iff_iff, hisOk, hisOk, hok, hok]

end ParamClass.Generation
