import ParamClass.Proofs.Grammar.Extension
import ParamClass.Proofs.Offsets.Reader

/-!
# Reading by offsets and reading characters

Reading by offsets follows the reading of characters: at the offset of what is left, each reader ends
with the same value at the offset of what is then left, or with the same fault at the same place
(`Follows`). So no move and no cut leaves the text, and no loop goes round more often than the text
has characters.

The rules for one step and for two steps in a row come first; each reader is then shown to follow
its counterpart along its own steps.
-/

namespace ParamClass.Xml.Offsets

open Text

variable {α β : Type} {whole s t : List Char}

/-- Where `s` is left of the text `whole`, `pos` is the offset. -/
def At (whole s : List Char) (pos : Nat) : Prop :=
  ∃ before, whole = before ++ s ∧ String.utf8Len before = pos

/-- Each part that may be left of a text is left at one offset. -/
theorem At.eq_offset {pos next : Nat} (h : At whole s pos) (h' : At whole s next) : pos = next := by
  obtain ⟨before, hwhole, rfl⟩ := h
  obtain ⟨before', hwhole', rfl⟩ := h'
  rw [List.append_cancel_right (hwhole.symm.trans hwhole')]

/-- At each offset one part of a text is left. -/
theorem At.eq_rest {pos : Nat} (h : At whole s pos) (h' : At whole t pos) : s = t := by
  obtain ⟨before, hwhole, hlen⟩ := h
  obtain ⟨before', hwhole', hlen'⟩ := h'
  have hsplit := splitBytes?_eq_some_iff.2 ⟨hwhole, hlen⟩
  rw [splitBytes?_eq_some_iff.2 ⟨hwhole', hlen'⟩] at hsplit
  exact (Prod.mk.inj (Option.some.inj hsplit)).2.symm

/-- Reading by offsets ends like a reader of characters: with the same value, at the offset of what that
leaves, or with the same fault. -/
def Ends (whole : List Char) (outcome : Except Halt (α × Nat)) : Except Stop (α × List Char) → Prop
  | .ok (a, left) => ∃ pos, At whole left pos ∧ outcome = .ok (a, pos)
  | .error stop => stop.rest <:+ whole ∧ outcome = .error (.fault (stop.fault whole))

/-- Wherever `s` is left of the text, reading by offsets ends like a reader of characters. -/
def Follows (whole s : List Char) (reader : Reader α) (result : Except Stop (α × List Char)) : Prop :=
  ∀ pos, At whole s pos → Ends whole (reader.runAt whole pos) result

/-- The result of a reader that has no value. -/
def silently (result : Except Stop (List Char)) : Except Stop (Unit × List Char) :=
  result.map fun left => ((), left)

/-! ## Steps -/

/-- Another reader goes on where a reader ends. -/
theorem runAt_bind_ok {m : Reader α} {f : α → Reader β} {a : α} {pos next : Nat}
    (h : m.runAt whole pos = .ok (a, next)) :
    (m >>= f).runAt whole pos = (f a).runAt whole next := by
  unfold Reader.runAt at h ⊢
  simp only [bind, ReaderT.bind, StateT.bind, Except.bind]
  rw [h]

/-- Nothing goes on where a reader ends without a value. -/
theorem runAt_bind_error {m : Reader α} {f : α → Reader β} {halt : Halt} {pos : Nat}
    (h : m.runAt whole pos = .error halt) : (m >>= f).runAt whole pos = .error halt := by
  unfold Reader.runAt at h ⊢
  simp only [bind, ReaderT.bind, StateT.bind, Except.bind]
  rw [h]

/-- Two readers in a row follow one reader after the other. -/
theorem Follows.bind {m : Reader α} {f : α → Reader β} {a : α}
    {result : Except Stop (β × List Char)} (hm : Follows whole s m (.ok (a, t)))
    (hf : Follows whole t (f a) result) : Follows whole s (m >>= f) result := by
  intro pos hpos
  obtain ⟨next, hnext, hrun⟩ := hm pos hpos
  rw [runAt_bind_ok hrun]
  exact hf next hnext

/-- When the first of two readers stops, both stop. -/
theorem Follows.bind_error {m : Reader α} {f : α → Reader β} {stop : Stop}
    (hm : Follows whole s m (.error stop)) : Follows whole s (m >>= f) (.error stop) := by
  intro pos hpos
  obtain ⟨hsuffix, hrun⟩ := hm pos hpos
  exact ⟨hsuffix, runAt_bind_error hrun⟩

/-- Two readers in a row follow a reader of characters that stops where the first of its parts does. -/
theorem Follows.bind_cases {m : Reader α} {f : α → Reader β} {first : Except Stop (α × List Char)}
    {result : Except Stop (β × List Char)} (hm : Follows whole s m first)
    (herror : ∀ stop, first = .error stop → result = .error stop)
    (hok : ∀ a left, first = .ok (a, left) → Follows whole left (f a) result) :
    Follows whole s (m >>= f) result := by
  rcases first with stop | ⟨a, left⟩
  · rw [herror stop rfl]
    exact hm.bind_error
  · exact hm.bind (hok a left rfl)

/-- The same where the first of two readers has no value. -/
theorem Follows.bind_silently {m : Reader Unit} {f : Unit → Reader β} {first : Except Stop (List Char)}
    {result : Except Stop (β × List Char)} (hm : Follows whole s m (silently first))
    (herror : ∀ stop, first = .error stop → result = .error stop)
    (hok : ∀ left, first = .ok left → Follows whole left (f ()) result) :
    Follows whole s (m >>= f) result := by
  rcases first with stop | left
  · rw [herror stop rfl]
    exact hm.bind_error
  · exact hm.bind (hok left rfl)

/-- A value takes nothing of the text. -/
theorem follows_pure (a : α) : Follows whole s (pure a) (.ok (a, s)) :=
  fun pos hpos => ⟨pos, hpos, rfl⟩

/-- A reader may go on with the offset of what is left. -/
theorem follows_offset {f : Nat → Reader β} {result : Except Stop (β × List Char)}
    (h : ∀ pos, At whole s pos → Follows whole s (f pos) result) :
    Follows whole s (offset >>= f) result :=
  fun pos hpos => h pos hpos pos hpos

/-- A reader may go on with the whole text. -/
theorem follows_read {f : List Char → Reader β} {result : Except Stop (β × List Char)}
    (h : Follows whole s (f whole) result) : Follows whole s (read >>= f) result :=
  fun pos hpos => h pos hpos

/-- Every offset of the text may be gone to. -/
theorem follows_set {pos : Nat} (h : At whole t pos) : Follows whole s (set pos) (.ok ((), t)) :=
  fun _ _ => ⟨pos, h, rfl⟩

/-- A loop may go round more often than there are characters left. -/
theorem follows_rounds {f : Nat → Reader β} {result : Except Stop (β × List Char)}
    (h : ∀ n, s.length < n → Follows whole s (f n) result) :
    Follows whole s (rounds >>= f) result := by
  intro pos hpos
  obtain ⟨before, hwhole, -⟩ := id hpos
  have hlength : s.length < whole.length + 1 := by
    rw [hwhole, List.length_append]
    omega
  exact h _ hlength pos hpos

/-- A text is cut at the end of a part. -/
theorem follows_cutAt {n : Nat} {u before after : List Char} (h : u = before ++ after)
    (hn : String.utf8Len before = n) : Follows whole s (cutAt n u) (.ok ((before, after), s)) := by
  rw [cutAt, splitBytes?_eq_some_iff.2 ⟨h, hn⟩]
  exact follows_pure _

/-- What is left is what is left. -/
theorem follows_rest : Follows whole s rest (.ok (s, s)) := by
  unfold rest
  refine follows_offset fun pos ⟨before, hwhole, hlen⟩ => follows_read ?_
  exact .bind (follows_cutAt hwhole hlen) (follows_pure s)

/-- Where a mark is next, the first of two readers goes on. -/
theorem follows_startsWith {mark : List Char} {yes no : Reader α} {result : Except Stop (α × List Char)}
    (hmark : after? mark s = some t) (h : Follows whole s yes result) :
    Follows whole s (do if ← startsWith mark then yes else no) result := by
  have hstarts : Follows whole s (startsWith mark) (.ok (true, s)) := by
    refine .bind follows_rest ?_
    rw [hmark]
    exact follows_pure true
  refine hstarts.bind ?_
  rw [if_pos rfl]
  exact h

/-- Where a mark is not next, the second of two readers goes on. -/
theorem follows_startsWith_none {mark : List Char} {yes no : Reader α}
    {result : Except Stop (α × List Char)} (hmark : after? mark s = none) (h : Follows whole s no result) :
    Follows whole s (do if ← startsWith mark then yes else no) result := by
  have hstarts : Follows whole s (startsWith mark) (.ok (false, s)) := by
    refine .bind follows_rest ?_
    rw [hmark]
    exact follows_pure false
  refine hstarts.bind ?_
  rw [if_neg Bool.false_ne_true]
  exact h

/-- A part of what is left is gone past by its number of bytes. -/
theorem follows_advance {n : Nat} {part : List Char} (h : s = part ++ t)
    (hn : String.utf8Len part = n) : Follows whole s (advance n) (.ok ((), t)) := by
  unfold advance
  refine follows_offset fun pos ⟨before, hwhole, hlen⟩ => follows_read ?_
  have hnext : whole = before ++ part ++ t := by rw [hwhole, h, List.append_assoc]
  have hsize : String.utf8Len (before ++ part) = pos + n := by rw [String.utf8Len_append, hlen, hn]
  exact .bind (follows_cutAt hnext hsize) (follows_set ⟨_, hnext, hsize⟩)

/-- A fault is reported at the place of the text that is left at its offset. -/
theorem follows_failAt {start : Nat} (h : At whole t start) (cause : Cause) :
    Follows whole s (failAt start cause : Reader α) (.error ⟨cause, t⟩) := by
  obtain ⟨before, hwhole, hlen⟩ := h
  unfold failAt
  refine follows_read (.bind (follows_cutAt hwhole hlen) fun pos _ => ?_)
  refine ⟨⟨before, hwhole.symm⟩, ?_⟩
  rw [hwhole, Stop.fault_append]
  rfl

/-- A fault is reported at the place that has been reached. -/
theorem follows_fail (cause : Cause) :
    Follows whole s (fail cause : Reader α) (.error ⟨cause, s⟩) := by
  unfold fail
  exact follows_offset fun pos hpos => follows_failAt hpos cause

/-- A character that is next is skipped. -/
theorem follows_expect (mark : Char) : Follows whole (mark :: t) (expect mark) (.ok ((), t)) := by
  unfold expect
  refine follows_startsWith (after?_append [mark] t) ?_
  exact follows_advance List.singleton_append.symm (Nat.zero_add _)

/-- A character that is not next is a fault. -/
theorem follows_expect_error {mark : Char} (h : s.head? ≠ some mark) :
    Follows whole s (expect mark) (.error ⟨.expected mark, s⟩) := by
  have hnone : after? [mark] s = none := by
    rw [after?_eq_none_iff]
    rintro ⟨r, rfl⟩
    exact h rfl
  unfold expect
  exact follows_startsWith_none hnone (follows_fail _)

/-- Leading spaces are skipped as bytes. -/
theorem follows_skipSpaces : Follows whole s skipSpaces (.ok (startsWithSpace s, skipSpace s)) := by
  have hsplit : s = s.takeWhile isSpace ++ skipSpace s := List.takeWhile_append_dropWhile.symm
  -- A space is one byte, so there are skipped bytes exactly when the text starts with a space.
  have hany : decide (0 < ((utf8 s).takeWhile isSpaceByte).length) = startsWithSpace s := by
    rw [length_takeWhile_isSpaceByte]
    rcases s with _ | ⟨c, s⟩
    · rfl
    · have hpos := c.utf8Size_pos
      by_cases hc : isSpace c = true
      · simp [startsWithSpace, hc, hpos]
      · simp [startsWithSpace, hc]
  unfold skipSpaces
  refine .bind follows_rest (.bind (follows_advance hsplit (length_takeWhile_isSpaceByte s).symm) ?_)
  rw [hany]
  exact follows_pure _

/-! ## Names and references -/

/-- A name is read. -/
theorem follows_name : Follows whole s name (readName s) := by
  unfold name readName
  refine .bind follows_rest ?_
  rcases s with _ | ⟨c, s⟩
  · exact follows_fail _
  · by_cases hc : isNameStart c = true
    · have hsplit : c :: s = (c :: s).takeWhile isNameChar ++ (c :: s).dropWhile isNameChar :=
        List.takeWhile_append_dropWhile.symm
      dsimp only
      rw [if_pos hc, if_pos hc]
      refine .bind (follows_advance hsplit rfl) (.bind (follows_cutAt hsplit rfl) ?_)
      exact follows_pure _
    · dsimp only
      rw [if_neg hc, if_neg hc]
      exact follows_fail _

/-- Where a mark is found, the text is cut before it. -/
theorem exists_of_indexOf? {mark s : List Char} {n : Nat} (h : indexOf? mark s = some n) :
    ∃ before after, cut? mark s = some (before, after) ∧ s = before ++ (mark ++ after) ∧
      String.utf8Len before = n := by
  obtain ⟨⟨before, after⟩, hcut, hn⟩ := Option.map_eq_some_iff.1 h
  exact ⟨before, after, hcut, by rw [cut?_eq_some hcut, List.append_assoc], hn⟩

/-- Where no mark is found, the text is not cut. -/
theorem indexOf?_eq_none_iff {mark s : List Char} : indexOf? mark s = none ↔ cut? mark s = none :=
  Option.map_eq_none_iff

/-- A reference is read. -/
theorem follows_reference : Follows whole ('&' :: s) reference (readReference s) := by
  unfold reference readReference
  refine follows_offset fun start hstart => .bind (follows_expect '&') (.bind follows_rest ?_)
  split
  · next hindex =>
    rw [indexOf?_eq_none_iff.1 hindex]
    exact follows_failAt hstart _
  · next size hindex =>
    obtain ⟨found, after, hcut, hs, hsize⟩ := exists_of_indexOf? hindex
    rw [hcut]
    refine .bind (follows_cutAt hs hsize) ?_
    dsimp only
    split
    · next cause hcause =>
      rw [hcause]
      exact follows_failAt hstart cause
    · next c hc =>
      rw [hc]
      have hpart : s = found ++ [';'] ++ after := by rw [hs, List.append_assoc]
      refine .bind (follows_advance hpart ?_) (follows_pure c)
      rw [String.utf8Len_append, hsize]
      rfl

/-! ## Markup that leaves nothing behind -/

/-- A comment is skipped. -/
theorem follows_comment :
    Follows whole (commentMark ++ s) comment (silently (readComment (commentMark ++ s) s)) := by
  unfold comment readComment
  refine follows_offset fun start hstart => .bind (follows_advance rfl rfl) (.bind follows_rest ?_)
  split
  · next hindex =>
    rw [indexOf?_eq_none_iff.1 hindex]
    exact follows_failAt hstart _
  · next size hindex =>
    obtain ⟨body, after, hcut, hs, hsize⟩ := exists_of_indexOf? hindex
    rw [hcut]
    refine .bind (follows_cutAt hs hsize) ?_
    dsimp only
    rcases after with _ | ⟨c, after⟩
    · exact follows_failAt hstart _
    · by_cases hc : c = '>'
      · subst hc
        have hmark : after? ['-', '-', '>'] (['-', '-'] ++ '>' :: after) = some after :=
          after?_append ['-', '-', '>'] after
        rw [hmark, Option.isSome_some, if_pos rfl]
        have hpart : s = body ++ ['-', '-', '>'] ++ after := by rw [hs, List.append_assoc]; rfl
        refine follows_advance hpart ?_
        rw [String.utf8Len_append, hsize]
        rfl
      · have hmark : after? ['-', '-', '>'] (['-', '-'] ++ c :: after) = none := by
          simp [after?, Ne.symm hc]
        rw [hmark, Option.isSome_none, if_neg Bool.false_ne_true]
        split
        · next heq => exact absurd heq (by simp)
        · next heq => exact absurd (List.cons.inj (Prod.mk.inj (Option.some.inj heq)).2).1 hc
        · exact follows_failAt hstart _

/-- An instruction is skipped. -/
theorem follows_instruction :
    Follows whole (instructionMark ++ s) instruction (readInstruction (instructionMark ++ s) s) := by
  unfold instruction readInstruction
  refine follows_offset fun start hstart => .bind (follows_advance rfl rfl) ?_
  refine follows_name.bind_cases (fun stop hread => by rw [hread]) fun target data hread => ?_
  rw [hread]
  refine .bind follows_rest ?_
  dsimp only
  split
  · next hindex =>
    rw [indexOf?_eq_none_iff.1 hindex]
    exact follows_failAt hstart _
  · next size hindex =>
    obtain ⟨body, after, hcut, hs, hsize⟩ := exists_of_indexOf? hindex
    have hpart : data = body ++ ['?', '>'] ++ after := by rw [hs, List.append_assoc]
    rw [hcut]
    refine .bind (follows_advance hpart ?_) (follows_pure target)
    rw [String.utf8Len_append, hsize]
    rfl

/-- An instruction is skipped, if it is no declaration or stands where one may. -/
theorem follows_checkedInstruction {first : Option Nat} {result : Except Stop (List Char)}
    (h : ∀ pos, At whole (instructionMark ++ s) pos → result = do
      let (target, left) ← readInstruction (instructionMark ++ s) s
      if isDeclaration target && some pos != first then
        .error ⟨.misplacedDeclaration, instructionMark ++ s⟩
      else return left) :
    Follows whole (instructionMark ++ s) (checkedInstruction first) (silently result) := by
  unfold checkedInstruction
  refine follows_offset fun start hstart => ?_
  rw [h start hstart]
  refine follows_instruction.bind_cases (fun stop hread => by rw [hread]; rfl) fun target left hread => ?_
  rw [hread]
  change Follows _ _ _ (silently (if _ then _ else _))
  split
  · exact follows_failAt hstart _
  · exact follows_pure ()

/-- An instruction is skipped where no declaration may stand. -/
theorem follows_checkedInstruction_of_ne {first : Option Nat}
    (h : ∀ pos, At whole (instructionMark ++ s) pos → some pos ≠ first) :
    Follows whole (instructionMark ++ s) (checkedInstruction first)
      (silently (readPlainInstruction (instructionMark ++ s) s)) := by
  refine follows_checkedInstruction fun pos hpos => ?_
  rw [bne_iff_ne.2 (h pos hpos), readPlainInstruction]
  simp only [Bool.and_true]
  cases readInstruction (instructionMark ++ s) s <;> rfl

/-- An instruction is skipped where a declaration may stand. -/
theorem follows_checkedInstruction_first {first : Nat} (h : At whole (instructionMark ++ s) first) :
    Follows whole (instructionMark ++ s) (checkedInstruction (some first))
      (silently ((readInstruction (instructionMark ++ s) s).map (·.2))) := by
  refine follows_checkedInstruction fun pos hpos => ?_
  rw [hpos.eq_offset h, bne_self_eq_false]
  simp only [Bool.and_false]
  cases readInstruction (instructionMark ++ s) s <;> rfl

/-- An instruction that is no declaration is skipped. -/
theorem follows_plainInstruction :
    Follows whole (instructionMark ++ s) plainInstruction
      (silently (readPlainInstruction (instructionMark ++ s) s)) :=
  follows_checkedInstruction_of_ne fun pos _ => Option.some_ne_none pos

/-- The rest of a document type declaration is skipped, or the declaration is reported. -/
theorem follows_doctypeEnd {start n depth : Nat} {quote : Option Char} (hstart : At whole t start)
    (hn : s.length < n) :
    Follows whole s (doctypeEnd start n depth quote)
      ((skipDoctype depth quote s).elim (.error ⟨.unterminatedDoctype, t⟩)
        fun left => .ok ((), left)) := by
  induction n generalizing s depth quote with
  | zero => exact absurd hn (Nat.not_lt_zero _)
  | succ n ih =>
    rw [doctypeEnd]
    rcases s with _ | ⟨c, s⟩
    · rw [skipDoctype]
      exact .bind follows_rest (follows_failAt hstart _)
    have hpart : c :: s = [c] ++ s := rfl
    have hs : s.length < n := Nat.lt_of_succ_lt_succ hn
    refine .bind follows_rest (.bind (follows_advance hpart (Nat.zero_add _)) ?_)
    rcases quote with _ | q
    · rw [skipDoctype]
      dsimp only
      split
      · exact ih hs
      · split
        · exact ih hs
        · split
          · exact ih hs
          · split
            · exact follows_pure ()
            · exact ih hs
    · rw [skipDoctype]
      exact ih hs

/-- A document type declaration is skipped. -/
theorem follows_doctype :
    Follows whole (doctypeMark ++ s) doctype (silently (readDoctype (doctypeMark ++ s) s)) := by
  have hresult : silently (readDoctype (doctypeMark ++ s) s) =
      (skipDoctype 0 none s).elim (.error ⟨.unterminatedDoctype, doctypeMark ++ s⟩)
        fun left => .ok ((), left) := by
    rw [readDoctype]
    cases skipDoctype 0 none s <;> rfl
  unfold doctype
  rw [hresult]
  refine follows_offset fun start hstart => .bind (follows_advance rfl rfl) ?_
  exact follows_rounds fun n hn => follows_doctypeEnd hstart hn

/-! ## Tags -/

/-- A value is read up to its quote, which is one byte. -/
theorem follows_value {quote : Char} {n : Nat} (hquote : quote.utf8Size = 1) (hn : s.length < n) :
    Follows whole s (value quote n) (readValue quote s) := by
  -- Induction on the rounds: what is left after a character or a reference is shorter by it.
  have hnext : ∀ {c : Char} {r : List Char}, Follows whole (c :: r) (advance c.utf8Size) (.ok ((), r)) :=
    follows_advance List.singleton_append.symm (Nat.zero_add _)
  have hreference : ∀ {r : List Char}, Follows whole ('&' :: r) reference (readReference r) :=
    follows_reference
  induction n generalizing s with
  | zero => exact absurd hn (Nat.not_lt_zero _)
  | succ n ih =>
    rw [value]
    refine .bind follows_rest ?_
    fun_cases readValue quote s with
    | case1 => exact follows_fail _
    | case2 r =>
      dsimp only
      rw [if_pos rfl, ← hquote]
      exact .bind hnext (follows_pure [])
    | case3 r hne =>
      dsimp only
      rw [if_neg hne, if_pos rfl]
      exact follows_fail _
    | case4 r stop hread hne hlt =>
      dsimp only
      rw [if_neg hne, if_neg hlt, if_pos rfl]
      exact .bind_error (hread ▸ hreference)
    | case5 r d after hread stop hvalue hne hlt =>
      have hafter : after.length < n :=
        (readReference_length hread).trans (Nat.lt_of_succ_lt_succ hn)
      dsimp only
      rw [if_neg hne, if_neg hlt, if_pos rfl]
      exact .bind (hread ▸ hreference) (.bind_error (hvalue ▸ ih hafter))
    | case6 r d after hread others left hvalue hne hlt =>
      have hafter : after.length < n :=
        (readReference_length hread).trans (Nat.lt_of_succ_lt_succ hn)
      dsimp only
      rw [if_neg hne, if_neg hlt, if_pos rfl]
      exact .bind (hread ▸ hreference) (.bind (hvalue ▸ ih hafter) (follows_pure _))
    | case7 c r hne hlt hamp stop hvalue =>
      dsimp only
      rw [if_neg hne, if_neg hlt, if_neg hamp]
      exact .bind hnext (.bind_error (hvalue ▸ ih (Nat.lt_of_succ_lt_succ hn)))
    | case8 c r hne hlt hamp others left hvalue =>
      dsimp only
      rw [if_neg hne, if_neg hlt, if_neg hamp]
      exact .bind hnext (.bind (hvalue ▸ ih (Nat.lt_of_succ_lt_succ hn)) (follows_pure _))

/-- A quoted value is read. -/
theorem follows_quoted : Follows whole s quoted (readQuoted s) := by
  unfold quoted readQuoted
  refine .bind follows_rest ?_
  rcases s with _ | ⟨c, r⟩
  · exact follows_fail _
  · by_cases hc : c = '"' ∨ c = '\''
    · have hsize : c.utf8Size = 1 := by rcases hc with rfl | rfl <;> rfl
      have hpart : c :: r = [c] ++ r := rfl
      dsimp only
      rw [if_pos hc, if_pos hc]
      refine .bind (follows_advance hpart ((Nat.zero_add _).trans hsize)) ?_
      exact follows_rounds fun n hn => follows_value hsize hn
    · dsimp only
      rw [if_neg hc, if_neg hc]
      exact follows_fail _

/-- An attribute is read. -/
theorem follows_rawAttribute : Follows whole s rawAttribute (readAttribute s) := by
  unfold rawAttribute readAttribute
  refine follows_name.bind_cases (fun stop hread => by rw [hread]) fun found r hread => ?_
  rw [hread]
  refine .bind follows_skipSpaces ?_
  dsimp only
  split
  · next r' heq =>
    rw [heq]
    refine .bind (follows_expect '=') (.bind follows_skipSpaces ?_)
    refine follows_quoted.bind_cases (fun stop hread => by rw [hread]) fun v left hread => ?_
    rw [hread]
    exact follows_pure _
  · next hne =>
    refine (follows_expect_error fun hhead => ?_).bind_error
    obtain ⟨r', hr'⟩ := List.head?_eq_some_iff.1 hhead
    exact hne r' hr'

/-- Where a tag does not end, another attribute is read. -/
theorem follows_rawAttributes_next {opened : String} {n : Nat} {before : List RawAttribute}
    {result : Except Stop (Tag × List Char)} (hempty : after? ['/', '>'] (skipSpace s) = none)
    (hend : after? ['>'] (skipSpace s) = none)
    (h : Follows whole (skipSpace s) (nextAttribute opened before (startsWithSpace s) >>=
      fun a => rawAttributes opened n (before ++ [a])) result) :
    Follows whole s (rawAttributes opened (n + 1) before) result := by
  rw [rawAttributes]
  exact .bind follows_skipSpaces (follows_startsWith_none hempty (follows_startsWith_none hend h))

/-- Where a tag goes on behind a space, an attribute is read. It may not have the name of an earlier
one. -/
theorem follows_nextAttribute {opened : String} {before : List RawAttribute} (hs : s ≠ []) :
    Follows whole s (nextAttribute opened before true) (readAttribute s >>= fun part =>
      if before.any (·.name == part.1.name) then .error ⟨.duplicateAttribute part.1.name, s⟩
      else .ok part) := by
  unfold nextAttribute
  refine .bind follows_rest ?_
  rw [if_neg (by simpa using hs), Bool.not_true, if_neg Bool.false_ne_true]
  refine follows_offset fun start hstart => ?_
  refine follows_rawAttribute.bind_cases (fun stop hread => by rw [hread]; rfl) fun a left hread => ?_
  rw [hread]
  change Follows _ _ _ (if _ then _ else _)
  split
  · exact follows_failAt hstart _
  · exact follows_pure a

/-- The rest of a start tag is read. -/
theorem follows_rawAttributes {opened : String} {n : Nat} {before : List RawAttribute}
    (hn : s.length < n) :
    Follows whole s (rawAttributes opened n before) (readAttributes opened before s) := by
  -- Induction on the rounds: an attribute takes at least its name.
  induction n generalizing s before with
  | zero => exact absurd hn (Nat.not_lt_zero _)
  | succ n ih =>
    fun_cases readAttributes opened before s with
    | case1 left hempty =>
      rw [rawAttributes]
      refine .bind follows_skipSpaces (follows_startsWith hempty ?_)
      exact .bind (follows_advance (after?_eq_some.1 hempty) rfl) (follows_pure _)
    | case2 hempty left hend =>
      rw [rawAttributes]
      refine .bind follows_skipSpaces (follows_startsWith_none hempty (follows_startsWith hend ?_))
      exact .bind (follows_advance (after?_eq_some.1 hend) rfl) (follows_pure _)
    | case3 hempty hend hnil =>
      refine follows_rawAttributes_next hempty hend (.bind_error (.bind follows_rest ?_))
      rw [hnil, List.isEmpty_nil, if_pos rfl]
      exact follows_fail _
    | case4 hempty hend hnil hspace =>
      have hself : skipSpace s = s := skipSpace_eq_self_iff.2 (by simpa using hspace)
      refine follows_rawAttributes_next hempty hend (.bind_error (.bind follows_rest ?_))
      rw [if_neg (by simpa using hnil), if_pos hspace, hself]
      exact follows_fail _
    | case5 hempty hend hnil hspace stop hread =>
      have hnext : Follows whole (skipSpace s) (nextAttribute opened before true) _ :=
        follows_nextAttribute hnil
      rw [hread] at hnext
      refine follows_rawAttributes_next hempty hend ?_
      rw [show startsWithSpace s = true by simpa using hspace]
      exact hnext.bind_error
    | case6 hempty hend hnil hspace a left hread hsame =>
      have hnext : Follows whole (skipSpace s) (nextAttribute opened before true) _ :=
        follows_nextAttribute hnil
      rw [hread] at hnext
      change Follows _ _ _ (if _ then _ else _) at hnext
      rw [if_pos hsame] at hnext
      refine follows_rawAttributes_next hempty hend ?_
      rw [show startsWithSpace s = true by simpa using hspace]
      exact hnext.bind_error
    | case7 hempty hend hnil hspace a left hread hnew =>
      have hnext : Follows whole (skipSpace s) (nextAttribute opened before true) _ :=
        follows_nextAttribute hnil
      have hleft : left.length < n := by
        have hshort := readAttribute_length hread
        have hskip := skipSpace_length s
        omega
      rw [hread] at hnext
      change Follows _ _ _ (if _ then _ else _) at hnext
      rw [if_neg hnew] at hnext
      refine follows_rawAttributes_next hempty hend ?_
      rw [show startsWithSpace s = true by simpa using hspace]
      exact hnext.bind (ih hleft)

/-- A start tag is read, from its name on. -/
theorem follows_startTag : Follows whole s startTag (readTag s) := by
  unfold startTag readTag
  refine follows_name.bind_cases (fun stop hread => by rw [hread]) fun opened left hread => ?_
  rw [hread]
  exact follows_rounds fun n hn => follows_rawAttributes hn

/-- An end tag is read. -/
theorem follows_endTag (opened : String) :
    Follows whole (['<', '/'] ++ s) (endTag opened)
      (silently (readEndTag opened (['<', '/'] ++ s) s)) := by
  unfold endTag readEndTag
  refine follows_offset fun start hstart => .bind (follows_advance rfl rfl) ?_
  refine follows_name.bind_cases (fun stop hread => by rw [hread]; rfl) fun found r hread => ?_
  rw [hread]
  dsimp only
  split
  · refine .bind follows_skipSpaces ?_
    split
    · next left heq =>
      rw [heq]
      exact follows_expect '>'
    · next hne =>
      refine follows_expect_error fun hhead => ?_
      obtain ⟨left, hleft⟩ := List.head?_eq_some_iff.1 hhead
      exact hne left hleft
  · exact follows_failAt hstart _

/-- A character data section is read. -/
theorem follows_cdata :
    Follows whole (Lead.cdata.mark ++ s) cdata
      ((cut? [']', ']', '>'] s).elim (.error ⟨.unterminatedCData, s⟩) .ok) := by
  unfold cdata
  refine .bind (follows_advance rfl rfl) (.bind follows_rest ?_)
  split
  · next hindex =>
    rw [indexOf?_eq_none_iff.1 hindex]
    exact follows_fail _
  · next size hindex =>
    obtain ⟨text, left, hcut, hs, hsize⟩ := exists_of_indexOf? hindex
    have hpart : s = text ++ [']', ']', '>'] ++ left := by rw [hs, List.append_assoc]
    rw [hcut]
    refine .bind (follows_cutAt hs hsize) (.bind (follows_advance hpart ?_) (follows_pure text))
    rw [String.utf8Len_append, hsize]
    rfl

end ParamClass.Xml.Offsets
