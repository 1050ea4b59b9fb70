import ParamClass.Manifest
import ParamClass.Proofs.Grammar.Document

/-!
# The made-up root

A text is put inside a root element by writing a start tag before it and an end tag after it. The
text may hold such tags itself, or start a comment, an instruction or a value that goes on into the
end tag. It gains nothing by that: the root is closed by the end tag that was added, and what it
holds is what the text denotes as content (`parse_inside_eq_ok_iff`). Only a name that ends in its
first two hyphens in a row would let the end tag be the end of a comment.
-/

namespace ParamClass.Xml

open Text

/-! ## The end of the text -/

/-- A name for a root element made up for a text: it has no prefix, and an end tag of it cannot be
the end of a comment. -/
structure WrapperName (name : String) : Prop where
  /-- It is a name. -/
  isName : IsName name.toList
  /-- It has no colon. -/
  colon : ':' ∉ name.toList
  /-- If it ends in two hyphens, these are not its first ones in a row. -/
  hyphens : ∀ front, name.toList = front ++ ['-', '-'] → ['-', '-'] <:+: front ++ ['-']

/-- A name that does not end in two hyphens will do. -/
theorem WrapperName.of_not_suffix {name : String} (hname : IsName name.toList)
    (hcolon : ':' ∉ name.toList) (hend : ¬ ['-', '-'] <:+ name.toList) : WrapperName name where
  isName := hname
  colon := hcolon
  hyphens front h := absurd ⟨front, h.symm⟩ hend

/-- The last character of a text that ends in a name is a name character. -/
theorem IsName.isNameChar_of_suffix {name s : List Char} {c : Char} (hname : IsName name)
    (h : [c] <:+ s ++ name) : isNameChar c = true := by
  have hlen : 1 ≤ name.length := by
    obtain ⟨d, r, rfl, -⟩ := hname.exists_cons
    simp
  have hlast : [c] <:+ name := List.suffix_of_suffix_length_le h (List.suffix_append s name) hlen
  exact hname.chars c (hlast.subset List.mem_cons_self)

/-- A comment that ends where an end tag does ends in the hyphens of the name, which are then the first
ones in it: those in its body would have ended the comment. -/
theorem CommentText.exists_front {t s name : List Char} (ht : CommentText t) (hname : IsName name)
    (h : t <:+ s ++ name ++ ['>']) :
    ∃ front, name = front ++ ['-', '-'] ∧ ¬ ['-', '-'] <:+: front ++ ['-'] := by
  obtain ⟨body, hinside, hend, rfl⟩ := ht
  obtain ⟨c, r, hcr, hc⟩ := hname.exists_cons
  have hstart : ∀ u : List Char, u.all (!isNameStart ·) = true → c ∉ u := by
    intro u hu hmem
    have hno := List.all_eq_true.1 hu c hmem
    rw [hc] at hno
    exact absurd hno (by decide)
  have hbody : commentMark ++ body ++ ['-', '-'] <:+ s ++ name :=
    List.suffix_append_self_iff.1 (by simpa using h)
  -- The name starts neither in the hyphens nor in the mark, so it starts in the body.
  obtain ⟨front, rfl⟩ : ∃ front, name = front ++ ['-', '-'] := by
    rcases List.suffix_or_suffix_of_suffix ((List.suffix_append _ _).trans hbody)
      (List.suffix_append s name) with ⟨front, hfront⟩ | hshort
    · exact ⟨front, hfront.symm⟩
    · rw [hcr] at hshort
      exact absurd (hshort.subset List.mem_cons_self) (hstart _ (by decide +kernel))
  rw [← List.append_assoc, List.suffix_append_self_iff] at hbody
  have hfront : front <:+ body := by
    rcases List.suffix_or_suffix_of_suffix hbody (List.suffix_append s front) with hlong | hshort
    · have hmem : '<' ∈ front ++ ['-', '-'] :=
        List.mem_append_left _ (hlong.subset (List.mem_append_left _ (by decide)))
      exact absurd hmem (hname.not_mem (isNameChar_eq_false (by simp)))
    · rcases List.suffix_or_suffix_of_suffix hshort (List.suffix_append commentMark body) with
        hinside | ⟨u, rfl⟩
      · exact hinside
      · cases u with
        | nil => exact List.suffix_refl _
        | cons d u =>
          obtain rfl : d = c := by
            rw [List.cons_append, List.cons_append] at hcr
            exact (List.cons.inj hcr).1
          have hmark : d :: u <:+ commentMark := List.suffix_append_self_iff.1 hshort
          exact absurd (hmark.subset List.mem_cons_self) (hstart _ (by decide +kernel))
  refine ⟨front, rfl, not_hyphens_infix_concat.2 ⟨?_, ?_⟩⟩
  · exact fun h => hinside (h.trans hfront.isInfix)
  · exact fun h => hend (h.trans hfront)

/-- Nothing that may stand after a root element reaches into an end tag of a wrapper. -/
theorem WrapperName.eq_nil_of_misc {name : String} (hname : WrapperName name) {s t m : List Char}
    (hm : MiscText m) (h : s ++ name.toList ++ ['>'] = t ++ m) : m = [] := by
  by_contra hne
  obtain ⟨u, hu, hlast⟩ := hm.exists_last hne
  have hend : u <:+ s ++ name.toList ++ ['>'] := by
    rw [h]
    exact List.suffix_append_of_suffix hu
  obtain ⟨c, hc, rfl⟩ | hcomment | ⟨target, data, -, -, -, rfl⟩ := hlast
  · obtain ⟨v, hv⟩ := hend
    obtain rfl : c = '>' := List.singleton_inj.1 (List.append_inj' hv rfl).2
    exact absurd hc (by decide)
  · obtain ⟨front, hfront, hfirst⟩ := hcomment.exists_front hname.isName hend
    exact hfirst (hname.hyphens front hfront)
  · -- Take the `>` of the end tag away: what is before it is then the end of the name.
    have hmark : ['?'] <:+ s ++ name.toList :=
      List.suffix_append_self_iff.1 ((List.suffix_append _ ['?', '>']).trans hend)
    exact absurd (hname.isName.isNameChar_of_suffix hmark) (by decide +kernel)

/-- What is before the end tag is all that is before it, whatever spaces the tag has. -/
theorem WrapperName.eq_of_endTag {name : String} (hname : WrapperName name) {s t e m : List Char}
    (he : EndTagText name e) (hm : MiscText m)
    (h : s ++ (['<', '/'] ++ name.toList ++ ['>']) = t ++ e ++ m) : s = t ∧ m = [] := by
  have hmisc : s ++ ['<', '/'] ++ name.toList ++ ['>'] = t ++ e ++ m := by
    rw [← h]
    simp
  obtain rfl := hname.eq_nil_of_misc hm hmisc
  obtain ⟨sp, -, hsp, rfl⟩ := he
  have hspaces : s ++ ['<', '/'] ++ name.toList = t ++ ['<', '/'] ++ name.toList ++ sp := by
    rw [← List.append_left_inj ['>'], hmisc]
    simp
  -- The last space would be the last character of the name.
  rcases List.eq_nil_or_concat sp with rfl | ⟨r, c, rfl⟩
  · rw [List.append_nil, List.append_cancel_right_eq, List.append_cancel_right_eq] at hspaces
    exact ⟨hspaces, rfl⟩
  · have hchar : isNameChar c = true := by
      apply hname.isName.isNameChar_of_suffix (s := s ++ ['<', '/'])
      rw [hspaces, List.concat_eq_append, ← List.append_assoc]
      exact List.suffix_append _ _
    rw [isNameChar_of_isSpace (hsp c (by simp))] at hchar
    exact absurd hchar (by simp)

/-! ## The start of the text -/

/-- A start tag without attributes. -/
theorem tagText_bare {name : String} (hname : IsName name.toList) :
    TagText (['<'] ++ name.toList ++ ['>']) ⟨name, [], false⟩ :=
  ⟨[], [], hname, .nil, List.nodup_nil, by simp [IsSpaces], by simp [Tag.endMark]⟩

/-- A text starts with one start tag only. -/
theorem TagText.unique {t t' rest rest' : List Char} {tag tag' : Tag} (h : TagText t tag)
    (h' : TagText t' tag') (heq : t ++ rest = t' ++ rest') : t = t' ∧ tag = tag' := by
  obtain ⟨c, r, hr, -⟩ := h.exists_eq
  have hread : readTag (c :: r ++ rest) = .ok (tag, rest) :=
    readTag_eq_ok_iff.2 ⟨t, h, by rw [hr]; rfl⟩
  have hread' : readTag (c :: r ++ rest) = .ok (tag', rest') :=
    readTag_eq_ok_iff.2 ⟨t', h', by rw [← heq, hr]; rfl⟩
  rw [hread] at hread'
  obtain ⟨rfl, rfl⟩ := Prod.mk.inj (Except.ok.inj hread')
  exact ⟨List.append_cancel_right heq, rfl⟩

/-- A tag without a prefix and without attributes, outside of which no prefix stands for anything,
means its name and nothing else. -/
theorem Tag.means_bare_iff {name : String} (hcolon : ':' ∉ name.toList) {head : Head} :
    (⟨name, [], false⟩ : Tag).Means noBindings head ↔ head = ⟨name, none, []⟩ := by
  constructor
  · rintro ⟨-, ⟨pre, hparts, hselects⟩, hattributes⟩
    rcases head with ⟨base, uri, attributes⟩
    have hplain : QName.ofName? name = some ⟨none, name⟩ :=
      QName.ofName?_eq_some_iff.2 (.plain hcolon)
    rw [QName.ofName?_eq_some_iff.2 hparts] at hplain
    obtain ⟨rfl, rfl⟩ := QName.mk.inj (Option.some.inj hplain)
    obtain rfl : uri = none := by
      cases hselects with
      | bound _ h => exact absurd h (by simp [bindingsInside, noBindings])
      | emptied => rfl
      | unqualified => rfl
    cases hattributes
    rfl
  · rintro rfl
    exact ⟨by simp, ⟨none, .plain hcolon, .unqualified rfl⟩, .nil⟩

/-! ## The text inside -/

/-- A text inside an element of this name. -/
def inside (name text : String) : String :=
  "<" ++ name ++ ">" ++ text ++ "</" ++ name ++ ">"

/-- Normalizing line ends leaves the tags around a text as they are. -/
theorem normalizeLines_inside {name : String} (hname : IsName name.toList) (text : String) :
    normalizeLines (inside name text).toList = ['<'] ++ name.toList ++ ['>'] ++
      normalizeLines text.toList ++ (['<', '/'] ++ name.toList ++ ['>']) := by
  have hcr : '\r' ∉ name.toList := hname.not_mem (isNameChar_eq_false (by simp))
  have htext : (inside name text).toList = ['<'] ++ name.toList ++ ['>'] ++
      (text.toList ++ (['<', '/'] ++ name.toList ++ ['>'])) := by
    simp [inside]
  have hend : normalizeLines (['<', '/'] ++ name.toList ++ ['>']) =
      ['<', '/'] ++ name.toList ++ ['>'] := by
    rw [← List.append_nil (_ ++ ['>']), normalizeLines_append_of_not_mem (by simp [hcr]), normalizeLines]
  rw [htext, normalizeLines_append_of_not_mem (by simp [hcr]), normalizeLines_append (by simp), hend,
    List.append_assoc _ (normalizeLines _)]

/-- Content between a bare start tag and its end tag is an element that holds its nodes. -/
theorem elementText_inside {name : String} (hname : IsName name.toList) (hcolon : ':' ∉ name.toList)
    {s : List Char} {root : Element} (hhead : root.head = ⟨name, none, []⟩) (hs : ContentText noBindings s root.children) :
    ElementText noBindings (['<'] ++ name.toList ++ ['>'] ++ s ++
      (['<', '/'] ++ name.toList ++ ['>'])) root := by
  have hmeans : (⟨name, [], false⟩ : Tag).Means noBindings root.head :=
    (Tag.means_bare_iff hcolon).2 hhead
  have hend : EndTagText name (['<', '/'] ++ name.toList ++ ['>']) :=
    ⟨[], hname, by simp [IsSpaces], by simp⟩
  exact .filled (tagText_bare hname) rfl hmeans hs hend

/-- An element at the front of a text that is written inside tags holds all that is inside, when
nothing but what may be skipped follows it. -/
theorem ElementText.contentText_of_inside {name : String} (hname : WrapperName name)
    {s t m : List Char} {root : Element} (ht : ElementText noBindings t root) (hm : MiscText m)
    (h : ['<'] ++ name.toList ++ ['>'] ++ s ++ (['<', '/'] ++ name.toList ++ ['>']) = t ++ m) :
    root.head = ⟨name, none, []⟩ ∧ ContentText noBindings s root.children := by
  have hbare := tagText_bare hname.isName
  cases ht with
  | @empty _ _ tag head ht hempty _ =>
    rw [List.append_assoc] at h
    obtain ⟨-, rfl⟩ := hbare.unique ht h
    exact absurd hempty (by simp)
  | @filled _ t tag head s' nodes e ht _ hmeans hs he =>
    rw [List.append_assoc, List.append_assoc t, List.append_assoc t] at h
    obtain ⟨rfl, rfl⟩ := hbare.unique ht h
    rw [List.append_cancel_left_eq] at h
    obtain ⟨rfl, -⟩ := hname.eq_of_endTag he hm h
    exact ⟨(Tag.means_bare_iff hname.colon).1 hmeans, hs⟩

/-- A text inside an element starts with an element, and only what may be skipped follows that, if it is
parsed at all. -/
theorem parse_inside_eq_ok_iff_of_isName {name : String} (hname : IsName name.toList) {text : String}
    {root : Element} :
    parse (inside name text) = .ok root ↔
      ∃ t m, ElementText noBindings t root ∧ MiscText m ∧ root.depth ≤ maxDepth ∧
        ['<'] ++ name.toList ++ ['>'] ++ normalizeLines text.toList ++
          (['<', '/'] ++ name.toList ++ ['>']) = t ++ m := by
  have hstart : ∃ c r, normalizeLines (inside name text).toList = '<' :: c :: r ∧
      isNameStart c = true := by
    obtain ⟨c, r, hcr, hc⟩ := hname.exists_cons
    exact ⟨c, _, by rw [normalizeLines_inside hname, hcr]; rfl, hc⟩
  rw [parse_eq_ok_iff, readDocument_eq_ok_iff_of_start hstart, normalizeLines_inside hname]

/-- A text inside an element is parsed exactly when all of it is content that is not too deep, and
then the element is the one written around it. -/
theorem parse_inside_eq_ok_iff {name : String} (hname : WrapperName name) {text : String}
    {root : Element} :
    parse (inside name text) = .ok root ↔
      root.head = ⟨name, none, []⟩ ∧ root.depth ≤ maxDepth ∧
        ContentText noBindings (normalizeLines text.toList) root.children := by
  rw [parse_inside_eq_ok_iff_of_isName hname.isName]
  constructor
  · rintro ⟨t, m, ht, hm, hdepth, heq⟩
    obtain ⟨hhead, hcontent⟩ := ht.contentText_of_inside hname hm heq
    exact ⟨hhead, hdepth, hcontent⟩
  · rintro ⟨hhead, hdepth, hcontent⟩
    exact ⟨_, [], elementText_inside hname.isName hname.colon hhead hcontent, .nil, hdepth,
      (List.append_nil _).symm⟩

/-- In an element whose name ends in its first two hyphens, a text can close the element and start a
comment that the end tag ends. -/
theorem parse_inside_of_first_hyphens {name : String} (hname : IsName name.toList)
    (hcolon : ':' ∉ name.toList) (front : List Char)
    (hfront : name.toList = front ++ ['-', '-']) (hfirst : ¬ ['-', '-'] <:+: front ++ ['-']) :
    parse (inside name ("</" ++ name ++ "><!--")) = .ok ⟨⟨name, none, []⟩, []⟩ := by
  have hcr : '\r' ∉ name.toList := hname.not_mem (isNameChar_eq_false (by simp))
  have htext : normalizeLines ("</" ++ name ++ "><!--").toList =
      ['<', '/'] ++ name.toList ++ ['>'] ++ commentMark := by
    have hlist : ("</" ++ name ++ "><!--").toList =
        ['<', '/'] ++ name.toList ++ ['>'] ++ commentMark := by
      simp [commentMark]
    rw [hlist, ← List.append_nil (_ ++ commentMark),
      normalizeLines_append_of_not_mem (by simp [hcr, commentMark]), normalizeLines]
  have helement : ElementText noBindings _ ⟨⟨name, none, []⟩, []⟩ :=
    elementText_inside hname hcolon rfl .nil
  -- The text leaves a comment open, and the hyphens that end it are those of the name.
  have hcomment : CommentText (commentMark ++ ['<', '/'] ++ name.toList ++ ['>']) := by
    have hbody : ¬ ['-', '-'] <:+: ['<', '/'] ++ front ++ ['-'] := by
      simpa [List.infix_cons_iff] using hfirst
    obtain ⟨hinside, hend⟩ := not_hyphens_infix_concat.1 hbody
    exact ⟨_, hinside, hend, by simp [hfront]⟩
  rw [parse_inside_eq_ok_iff_of_isName hname, htext]
  refine ⟨_, _, helement, .comment hcomment .nil, ?_, by simp⟩
  exact Nat.succ_le_of_lt (by decide : 0 < maxDepth)

/-- Reading the root element that a text is written inside takes the whole text. -/
theorem readElement_inside {name : String} (hname : WrapperName name) {text : String}
    {root : Element} (h : parse (inside name text) = .ok root) :
    ∃ s, normalizeLines (inside name text).toList = '<' :: s ∧
      ∀ start, readElement start s = .ok (root, []) := by
  obtain ⟨hhead, hdepth, hcontent⟩ := (parse_inside_eq_ok_iff hname).1 h
  have ht := elementText_inside hname.isName hname.colon hhead hcontent
  rw [← normalizeLines_inside hname.isName] at ht
  obtain ⟨c, r, hr, -⟩ := ht.exists_eq
  refine ⟨c :: r, hr, fun start => readElement_eq_ok_iff.2 ⟨_, ht, hdepth, ?_⟩⟩
  rw [hr, List.append_nil]

end ParamClass.Xml

namespace ParamClass.Manifest

open Text Xml

/-! ## Manifests -/

/-- The name of the made-up root may be written around any text. -/
theorem wrapperName_ok : WrapperName wrapperName :=
  .of_not_suffix (by decide +kernel) (by decide) (by decide)

/-- A text that is no document is a manifest exactly when it is one inside the made-up root. -/
theorem parse_eq_ok_iff_of_error {text : String} {fault : Xml.Fault}
    (h : Xml.parse text = .error fault) {root : Element} :
    parse text = .ok root ↔ Xml.parse (inside wrapperName text) = .ok root := by
  have hwrap : wrap text = inside wrapperName text := rfl
  rw [parse, h, ← hwrap]
  dsimp only
  split
  · next hroot => rw [hroot, Except.ok.injEq, Except.ok.injEq]
  · next hfault =>
    rw [hfault]
    simp

/-- What a text denotes inside an element does not depend on the name of the element, which is the
root and has no namespace and no attributes. When a manifest is read inside the made-up root, the
root is closed by the end tag that was added, and all of the text is its content. -/
theorem parse_inside_congr {m n : String} (hm : WrapperName m) (hn : WrapperName n) (text : String) :
    (∀ nodes, (∃ root, Xml.parse (inside m text) = .ok root ∧ root.children = nodes) ↔
      ∃ root, Xml.parse (inside n text) = .ok root ∧ root.children = nodes) ∧
    (∀ root, Xml.parse (inside m text) = .ok root → root.head = ⟨m, none, []⟩) ∧
    (∀ root, Xml.parse (inside n text) = .ok root → root.head = ⟨n, none, []⟩) ∧
    ∀ fault root, Xml.parse text = .error fault → parse text = .ok root →
      root.head = ⟨wrapperName, none, []⟩ ∧
        ContentText noBindings (normalizeLines text.toList) root.children ∧
        ∃ s, normalizeLines (wrap text).toList = '<' :: s ∧
          ∀ start, readElement start s = .ok (root, []) := by
  have hsame : ∀ {m n : String}, WrapperName m → WrapperName n → ∀ nodes,
      (∃ root, Xml.parse (inside m text) = .ok root ∧ root.children = nodes) →
      ∃ root, Xml.parse (inside n text) = .ok root ∧ root.children = nodes := by
    rintro m n hm hn nodes ⟨root, hroot, rfl⟩
    obtain ⟨-, hdepth, hcontent⟩ := (parse_inside_eq_ok_iff hm).1 hroot
    exact ⟨⟨⟨n, none, []⟩, root.children⟩, (parse_inside_eq_ok_iff hn).2 ⟨rfl, hdepth, hcontent⟩, rfl⟩
  refine ⟨fun nodes => ⟨hsame hm hn nodes, hsame hn hm nodes⟩, ?_, ?_, ?_⟩
  · exact fun root hroot => ((parse_inside_eq_ok_iff hm).1 hroot).1
  · exact fun root hroot => ((parse_inside_eq_ok_iff hn).1 hroot).1
  · intro fault root hfault hroot
    have hwrapped := (parse_eq_ok_iff_of_error hfault).1 hroot
    obtain ⟨hhead, -, hcontent⟩ := (parse_inside_eq_ok_iff wrapperName_ok).1 hwrapped
    exact ⟨hhead, hcontent, readElement_inside wrapperName_ok hwrapped⟩

/-- Around a text with a comment that holds an end tag, another name gives the same content as the
name of the made-up root, also one that ends in hyphens that are not its first two. -/
theorem parse_inside_of_comment :
    let text := "x<c/><!-- </TempRoot> -->"
    WrapperName wrapperName ∧ WrapperName "a---" ∧
      ∃ root, Xml.parse (inside "a---" text) = .ok root ∧ root.head = ⟨"a---", none, []⟩ ∧
        root.children = [.text "x", .element ⟨"c", none, []⟩ []] := by
  intro text
  have hname : WrapperName "a---" := by
    refine ⟨by decide +kernel, by decide, fun front hfront => ?_⟩
    obtain rfl : ['a', '-'] = front := List.append_cancel_right (hfront : ['a', '-'] ++ _ = _)
    decide
  obtain ⟨hchildren, -, hhead, -⟩ := parse_inside_congr wrapperName_ok hname text
  have hwrapped : Xml.parse (inside wrapperName text) =
      .ok ⟨⟨"TempRoot", none, []⟩, [.text "x", .element ⟨"c", none, []⟩ []]⟩ := by
    decide +kernel
  obtain ⟨root, hroot, heq⟩ := (hchildren _).1 ⟨_, hwrapped, rfl⟩
  exact ⟨wrapperName_ok, hname, root, hroot, hhead root hroot, heq⟩

/-- A name that ends in its first two hyphens can be the end of a comment: then the end tag that closes the
root is one in the text, and the same text inside another name is no document. -/
theorem not_parse_inside_congr_of_hyphens :
    ¬ ∀ m n text : String, IsName m.toList → ':' ∉ m.toList → IsName n.toList → ':' ∉ n.toList →
      ∀ nodes, (∃ root, Xml.parse (inside m text) = .ok root ∧ root.children = nodes) ↔
        ∃ root, Xml.parse (inside n text) = .ok root ∧ root.children = nodes := by
  intro h
  have ha : IsName "a--".toList := by decide +kernel
  have hb : IsName "b".toList := by decide +kernel
  have hopen : Xml.parse (inside "a--" "</a--><!--") = .ok ⟨⟨"a--", none, []⟩, []⟩ :=
    parse_inside_of_first_hyphens ha (by decide) ['a'] rfl (by decide)
  have hclosed : (Xml.parse (inside "b" "</a--><!--")).isOk = false := by
    decide +kernel
  obtain ⟨root, hroot, -⟩ :=
    (h "a--" "b" "</a--><!--" ha (by decide) hb (by decide) []).1 ⟨_, hopen, rfl⟩
  rw [hroot] at hclosed
  exact absurd hclosed (by simp [Except.isOk, Except.toBool])

end ParamClass.Manifest
