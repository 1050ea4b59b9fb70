import ParamClass.Text.Lines

/-!
# Normalized lines

Normalizing line ends leaves a text without CR as it is, it goes part by part unless a part
boundary cuts a CR LF in two, and it makes up no mark that has no line ends. `Normalizes` says of a
part what becomes of it, whatever follows.
-/

namespace ParamClass.Text

/-- A text without CR stays as it is, whatever follows it. -/
theorem normalizeLines_append_of_not_mem {s : List Char} (h : '\r' ∉ s) (t : List Char) :
    normalizeLines (s ++ t) = s ++ normalizeLines t := by
  induction s with
  | nil => rfl
  | cons c s ih =>
    rw [List.mem_cons, not_or] at h
    have hne : c = '\r' → False := fun hc => h.1 hc.symm
    rw [List.cons_append, normalizeLines.eq_4 c _ (fun _ hc _ => hne hc) hne, ih h.2]
    rfl

/-- Lines are normalized part by part when the second part does not start with LF. -/
theorem normalizeLines_append {s t : List Char} (ht : t.head? ≠ some '\n') :
    normalizeLines (s ++ t) = normalizeLines s ++ normalizeLines t := by
  fun_induction normalizeLines s with
  | case1 => rfl
  | case2 s ih =>
    rw [List.cons_append, List.cons_append, normalizeLines, ih]
    rfl
  | case3 s hne ih =>
    have hne' : ∀ r, s ++ t ≠ '\n' :: r := by
      intro r hr
      rcases s with _ | ⟨c, s⟩
      · rw [List.nil_append] at hr
        exact ht (by rw [hr]; rfl)
      · obtain ⟨rfl, -⟩ := List.cons.inj hr
        exact hne s rfl
    rw [List.cons_append, normalizeLines.eq_3 _ hne', ih]
    rfl
  | case4 c s h1 h2 ih =>
    rw [List.cons_append, normalizeLines.eq_4 c _ (fun _ hc _ => h2 hc) h2, ih]
    rfl

/-- Lines are normalized part by part, unless the second part starts with the LF of a CR LF, which is
left out then. -/
theorem normalizeLines_append_cases (s t : List Char) :
    normalizeLines (s ++ t) = normalizeLines s ++ normalizeLines t ∨
      ∃ t', t = '\n' :: t' ∧ normalizeLines (s ++ t) = normalizeLines s ++ normalizeLines t' := by
  by_cases ht : t.head? = some '\n'
  · obtain ⟨t', rfl⟩ := List.head?_eq_some_iff.1 ht
    suffices h : normalizeLines (s ++ '\n' :: t') = normalizeLines s ++ normalizeLines ('\n' :: t') ∨
        normalizeLines (s ++ '\n' :: t') = normalizeLines s ++ normalizeLines t' from
      h.imp_right fun h => ⟨t', rfl, h⟩
    fun_induction normalizeLines s with
    | case1 => exact .inl rfl
    | case2 s ih =>
      rw [List.cons_append, List.cons_append, normalizeLines]
      exact ih.imp (congrArg (List.cons '\n')) (congrArg (List.cons '\n'))
    | case3 s hne ih =>
      rcases s with _ | ⟨c, s⟩
      · exact .inr rfl
      · have hne' : ∀ r, c :: s ++ '\n' :: t' ≠ '\n' :: r := by
          intro r hr
          obtain ⟨rfl, -⟩ := List.cons.inj hr
          exact hne s rfl
        rw [List.cons_append, normalizeLines.eq_3 _ hne']
        exact ih.imp (congrArg (List.cons '\n')) (congrArg (List.cons '\n'))
    | case4 c s h1 h2 ih =>
      rw [List.cons_append, normalizeLines.eq_4 c _ (fun _ hc _ => h2 hc) h2]
      exact ih.imp (congrArg (List.cons c)) (congrArg (List.cons c))
  · exact .inl (normalizeLines_append ht)

/-- A normalized text has no CR. -/
theorem not_mem_normalizeLines (s : List Char) : '\r' ∉ normalizeLines s := by
  fun_induction normalizeLines s with
  | case1 => exact List.not_mem_nil
  | case2 s ih => exact List.not_mem_cons_of_ne_of_not_mem (by decide) ih
  | case3 s _ ih => exact List.not_mem_cons_of_ne_of_not_mem (by decide) ih
  | case4 c s _ h ih => exact List.not_mem_cons_of_ne_of_not_mem (fun hc => h hc.symm) ih

/-- A text that has no LF when normalized has no CR. -/
theorem not_mem_of_normalizeLines {s : List Char} (h : '\n' ∉ normalizeLines s) : '\r' ∉ s := by
  fun_induction normalizeLines s with
  | case1 => exact List.not_mem_nil
  | case2 => exact absurd List.mem_cons_self h
  | case3 => exact absurd List.mem_cons_self h
  | case4 c s _ hc ih =>
    rw [List.mem_cons, not_or] at h
    exact List.not_mem_cons_of_ne_of_not_mem (fun hcr => hc hcr.symm) (ih h.2)

/-- A text starts with the character that it does when normalized, or with CR where that is LF. -/
theorem head?_of_normalizeLines {s : List Char} {c : Char} (h : (normalizeLines s).head? = some c) :
    s.head? = some c ∨ s.head? = some '\r' ∧ c = '\n' := by
  revert h
  fun_cases normalizeLines s with
  | case1 => exact .inl
  | case2 => exact fun h => .inr ⟨rfl, (Option.some.inj h).symm⟩
  | case3 => exact fun h => .inr ⟨rfl, (Option.some.inj h).symm⟩
  | case4 => exact .inl

/-- A mark without line ends that starts a normalized text starts the text. -/
theorem prefix_of_prefix_normalizeLines {mark s : List Char} (hcr : '\r' ∉ mark) (hlf : '\n' ∉ mark)
    (h : mark <+: normalizeLines s) : mark <+: s := by
  fun_induction normalizeLines s generalizing mark with
  | case1 => exact h
  | case2 s _ =>
    rcases mark with _ | ⟨m, mark⟩
    · exact List.nil_prefix
    · obtain ⟨rfl, -⟩ := List.cons_prefix_cons.1 h
      exact absurd List.mem_cons_self hlf
  | case3 s _ _ =>
    rcases mark with _ | ⟨m, mark⟩
    · exact List.nil_prefix
    · obtain ⟨rfl, -⟩ := List.cons_prefix_cons.1 h
      exact absurd List.mem_cons_self hlf
  | case4 c s _ _ ih =>
    rcases mark with _ | ⟨m, mark⟩
    · exact List.nil_prefix
    · obtain ⟨rfl, htail⟩ := List.cons_prefix_cons.1 h
      rw [List.mem_cons, not_or] at hcr hlf
      exact (List.prefix_cons_inj m).2 (ih hcr.2 hlf.2 htail)

/-- A mark without line ends that stands in a normalized text stands in the text. -/
theorem infix_of_infix_normalizeLines {mark s : List Char} (hcr : '\r' ∉ mark) (hlf : '\n' ∉ mark)
    (h : mark <:+: normalizeLines s) : mark <:+: s := by
  have hfirst : ∀ s t, mark <+: normalizeLines s ∨ t → mark <:+: s ∨ t := fun s t =>
    Or.imp_left fun hp => (prefix_of_prefix_normalizeLines hcr hlf hp).isInfix
  fun_induction normalizeLines s with
  | case1 => exact h
  | case2 s ih =>
    rw [List.infix_cons_iff] at h
    rcases hfirst ('\r' :: '\n' :: s) _ h with h | h
    · exact h
    · exact List.infix_cons (List.infix_cons (ih h))
  | case3 s hne ih =>
    rw [List.infix_cons_iff] at h
    rcases hfirst ('\r' :: s) _ (by rwa [normalizeLines.eq_3 s hne]) with h | h
    · exact h
    · exact List.infix_cons (ih h)
  | case4 c s h1 h2 ih =>
    rw [List.infix_cons_iff] at h
    rcases hfirst (c :: s) _ (by rwa [normalizeLines.eq_4 c s h1 h2]) with h | h
    · exact h
    · exact List.infix_cons (ih h)

/-- Only the empty text has no normalized line. -/
theorem normalizeLines_eq_nil_iff {s : List Char} : normalizeLines s = [] ↔ s = [] := by
  fun_cases normalizeLines s with
  | case1 => exact iff_of_true rfl rfl
  | case2 => simp
  | case3 => simp
  | case4 => simp

/-- A character that is no line end and ends a normalized text ends the text. -/
theorem suffix_singleton_of_normalizeLines {c : Char} {s : List Char} (hlf : c ≠ '\n')
    (h : [c] <:+ normalizeLines s) : [c] <:+ s := by
  fun_induction normalizeLines s with
  | case1 => exact h
  | case2 s ih =>
    rcases List.suffix_cons_iff.1 h with heq | h
    · exact absurd (List.cons.inj heq).1 hlf
    · exact (ih h).trans ⟨['\r', '\n'], rfl⟩
  | case3 s hne ih =>
    rcases List.suffix_cons_iff.1 h with heq | h
    · exact absurd (List.cons.inj heq).1 hlf
    · exact (ih h).trans (List.suffix_cons '\r' s)
  | case4 d s h1 h2 ih =>
    rcases List.suffix_cons_iff.1 h with heq | h
    · obtain ⟨rfl, htail⟩ := List.cons.inj heq
      obtain rfl := normalizeLines_eq_nil_iff.1 htail.symm
      exact List.suffix_rfl
    · exact (ih h).trans (List.suffix_cons d s)

/-! ## Parts of a text -/

/-- Normalizing makes `t` of the part `s`, whatever follows it. -/
def Normalizes (s t : List Char) : Prop :=
  ∀ rest, normalizeLines (s ++ rest) = t ++ normalizeLines rest

/-- A part without CR stays as it is. -/
theorem Normalizes.of_not_mem {s : List Char} (h : '\r' ∉ s) : Normalizes s s :=
  normalizeLines_append_of_not_mem h

/-- Two parts are normalized one after the other. -/
theorem Normalizes.append {s t s' t' : List Char} (h : Normalizes s t) (h' : Normalizes s' t') :
    Normalizes (s ++ s') (t ++ t') := by
  intro rest
  rw [List.append_assoc, h, h', List.append_assoc]

/-- Any number of parts are normalized one after the other. -/
theorem Normalizes.flatMap {α : Type} {f g : α → List Char} {xs : List α}
    (h : ∀ x ∈ xs, Normalizes (f x) (g x)) : Normalizes (xs.flatMap f) (xs.flatMap g) := by
  induction xs with
  | nil => exact Normalizes.of_not_mem List.not_mem_nil
  | cons x xs ih =>
    rw [List.forall_mem_cons] at h
    exact h.1.append (ih h.2)

/-- A part that ends in a character other than LF is normalized by itself, up to that character. -/
theorem Normalizes.before (s : List Char) {c : Char} {t : List Char} (hc : c ≠ '\n')
    (h : '\r' ∉ c :: t) : Normalizes (s ++ c :: t) (normalizeLines s ++ c :: t) := by
  intro rest
  have hhead : (c :: t ++ rest).head? ≠ some '\n' := by simpa using hc
  rw [List.append_assoc, normalizeLines_append hhead, normalizeLines_append_of_not_mem h,
    List.append_assoc]

/-- The whole text is normalized like a part of it. -/
theorem Normalizes.eq {s t : List Char} (h : Normalizes s t) : normalizeLines s = t := by
  have hnil := h []
  rwa [List.append_nil, normalizeLines, List.append_nil] at hnil

end ParamClass.Text
