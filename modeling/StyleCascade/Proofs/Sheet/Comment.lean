import Mathlib.Data.List.Infix
import StyleCascade.Proofs.Sheet.Values
import StyleCascade.Proofs.Token.Comment

namespace StyleCascade

namespace Token

/-- The place of a token is inside one of the values: there are tokens in front of it and behind it,
and not only white space. -/
def inValue (gap : Token) (values : List (List Token)) : Bool :=
  values.any fun value =>
    value.any (fun token => token.offset < gap.offset) &&
      value.any (fun token => gap.offset < token.offset && token.kind ≠ .space)

/-- A gap between two tokens of one value stands in a value, provided the later of the two is no
space. -/
theorem inValue_of_mem {gap first last : Token} {value : List Token} {values : List (List Token)}
    (mem : value ∈ values) (memFirst : first ∈ value) (before : first.offset < gap.offset)
    (memLast : last ∈ value) (behind : gap.offset < last.offset) (solid : last.kind ≠ .space) :
    gap.inValue values = true := by
  refine List.any_eq_true.mpr ⟨value, mem, ?_⟩
  rw [Bool.and_eq_true, List.any_eq_true, List.any_eq_true]
  exact ⟨⟨first, memFirst, decide_eq_true before⟩,
    ⟨last, memLast, by simp only [behind, solid, decide_true, ne_eq, not_false_eq_true,
      Bool.and_self]⟩⟩

/-- Two texts of pieces of the source, of which the first has the white space in it, and the second
has the comment in its place. -/
def Parted (gap : Token) (source : List UInt8) (one other : String) : Prop :=
  ∃ before behind, before ≠ [] ∧ before <:+ source.take gap.offset ∧
    behind ≠ [] ∧ behind <+: source.drop gap.stop ∧
    one = Utf8.text (before ++ gap.bytes ++ behind) ∧
    other = Utf8.text (before ++ emptyComment ++ behind)

/-- The tokens of a source as they stand in the source with the comment. -/
def frame (gap : Token) (source : List UInt8) : Frame where
  tokens := tokensOf source
  move := gap.beside
  tail := []
  kind_move := fun _ => rfl
  text_move := by
    intro token solid
    have other : ¬(token.kind = .space ∧ token.offset = gap.offset) := fun same => solid same.1
    rw [beside, if_neg other]
    rfl

end Token

namespace Token.Blank

variable {source : List UInt8} {gap : Token}

theorem take_commented (blank : gap.Blank source) {stop : Nat} (ends : stop ≤ gap.offset) :
    (gap.commented source).take stop = source.take stop := by
  have place := blank.length_take
  rw [commented, List.append_assoc, List.take_append_of_le_length (by omega), List.take_take,
    Nat.min_eq_left ends]

/-- What stands between a place in front of the white space and one behind it. -/
theorem slice_across (blank : gap.Blank source) {start : Nat} (stop : Nat)
    (inside : start ≤ gap.offset) :
    (source.take (gap.stop + stop)).drop start =
        (source.take gap.offset).drop start ++ gap.bytes ++ (source.drop gap.stop).take stop ∧
      ((gap.commented source).take (gap.offset + emptyComment.length + stop)).drop start =
        (source.take gap.offset).drop start ++ emptyComment ++
          (source.drop gap.stop).take stop := by
  have across (between : List UInt8) :
      ((source.take gap.offset ++ between ++ source.drop gap.stop).take
          (gap.offset + between.length + stop)).drop start =
        (source.take gap.offset).drop start ++ between ++ (source.drop gap.stop).take stop := by
    have place := blank.length_take
    rw [← place, ← List.length_append, place, List.take_length_add_append, List.append_assoc,
      List.append_assoc, List.drop_append_of_le_length (by omega)]
  have near := across gap.bytes
  rw [← blank.parts] at near
  exact ⟨near, across emptyComment⟩

/-- What stands between two places behind the white space. -/
theorem slice_behind (blank : gap.Blank source) (start stop : Nat) :
    (source.take (gap.stop + stop)).drop (gap.stop + start) =
      ((gap.commented source).take (gap.offset + emptyComment.length + stop)).drop
        (gap.offset + emptyComment.length + start) := by
  have behind (between : List UInt8) :
      ((source.take gap.offset ++ between ++ source.drop gap.stop).take
          (gap.offset + between.length + stop)).drop (gap.offset + between.length + start) =
        ((source.drop gap.stop).take stop).drop start := by
    have place := blank.length_take
    rw [← place, ← List.length_append, place, List.take_length_add_append,
      List.drop_length_add_append]
  have near := behind gap.bytes
  rw [← blank.parts] at near
  exact near.trans (behind emptyComment).symm

/-- The text of a value stays, or the white space stands in it. -/
theorem valueText_commented (blank : gap.Blank source) {start value : List Token}
    {values : List (List Token)} (inside : start <:+ tokensOf source)
    (cut : Declaration.valueTokens? start = some value) (among : value ∈ values) :
    Declaration.valueText source value =
        Declaration.valueText (gap.commented source) (value.map gap.beside) ∨
      gap.inValue values = true ∧
        gap.Parted source (Declaration.valueText source value)
          (Declaration.valueText (gap.commented source) (value.map gap.beside)) := by
  refine Frame.valueText_of_pieces (gap.frame source)
    (fun one other => one = other ∨ gap.inValue values = true ∧ gap.Parted source one other)
    (Or.inl rfl) ?_
  intro first last head mem solid
  have inSource : ∀ token ∈ value, token ∈ tokensOf source := fun token mem =>
    inside.subset (Declaration.mem_of_valueTokens? cut mem)
  have memFirst : first ∈ value := List.mem_of_head? head
  rw [show (gap.frame source).move = gap.beside from rfl]
  have some := List.length_pos_iff.mpr blank.bytes_ne_nil
  rcases blank.sides (inSource first memFirst) with ⟨firstBefore, -⟩ | rfl | ⟨one, -, rfl⟩
  · rw [Token.beside_of_lt firstBefore]
    rcases blank.sides (inSource last mem) with ⟨lastBefore, ends⟩ | rfl | ⟨two, memTwo, rfl⟩
    · rw [Token.beside_of_lt lastBefore, blank.take_commented ends]
      exact Or.inl rfl
    · exact absurd blank.kind solid
    · -- the white space stands between the two tokens
      obtain ⟨near, far⟩ := blank.slice_across two.stop (Nat.le_of_lt firstBefore)
      rw [Token.beside_shift blank.bytes_ne_nil, Token.shift_stop, Token.shift_stop, near, far]
      refine Or.inr ⟨Token.inValue_of_mem among memFirst firstBefore mem ?_ solid,
        _, _, ?_, List.drop_suffix _ _, ?_, List.take_prefix _ _, rfl, rfl⟩
      · simp only [Token.shift_offset, Token.stop]; omega
      · refine List.ne_nil_of_length_pos ?_
        rw [List.length_drop, blank.length_take]; omega
      · have reach := stop_le_of_mem_tokensOf memTwo
        have two := List.length_pos_iff.mpr (Lexeme.bytes_ne_nil_of_mem_readFrom memTwo)
        refine List.ne_nil_of_length_pos ?_
        simp only [Token.stop, List.length_take] at reach ⊢
        omega
  · exact absurd blank.kind (Declaration.head_solid cut head)
  · rw [Token.beside_shift blank.bytes_ne_nil]
    rcases blank.sides (inSource last mem) with ⟨lastBefore, ends⟩ | rfl | ⟨two, -, rfl⟩
    · -- nothing stands between a start behind the white space and an end in front of it
      rw [Token.beside_of_lt lastBefore, blank.take_commented ends, List.drop_eq_nil_of_le,
        List.drop_eq_nil_of_le]
      · exact Or.inl rfl
      · simp only [Token.shift_offset, List.length_take]; omega
      · have stop : gap.stop = gap.offset + gap.bytes.length := rfl
        simp only [Token.shift_offset, List.length_take]; omega
    · exact absurd blank.kind solid
    · rw [Token.beside_shift blank.bytes_ne_nil, Token.shift_stop, Token.shift_stop,
        Token.shift_offset, Token.shift_offset, blank.slice_behind]
      exact Or.inl rfl

theorem ended (source : List UInt8) (gap : Token) :
    (gap.frame source).Ended 0 (tokensOf source) :=
  ⟨List.suffix_refl _, Or.inl rfl⟩

theorem extend_tokensOf (blank : gap.Blank source) :
    (gap.frame source).extend (tokensOf source) = tokensOf (gap.commented source) := by
  rw [Frame.extend, show (gap.frame source).tail = [] from rfl, List.append_nil]
  exact blank.tokensOf_commented.symm

/-- The statements are the same, but for the texts of values that the white space stands in. -/
theorem readAll_commented (blank : gap.Blank source) (media : List String) :
    List.Forall₂ (Statement.Alike fun one other => one = other ∨ gap.Parted source one other)
      (Statement.readAll source media (tokensOf source))
      (Statement.readAll (gap.commented source) media (tokensOf (gap.commented source))) := by
  have texts : (gap.frame source).Texts source (gap.commented source)
      (fun one other => one = other ∨ gap.Parted source one other) :=
    fun start value inside cut =>
      (blank.valueText_commented inside cut (List.mem_singleton_self value)).imp id And.right
  obtain ⟨moved, read, alike⟩ := (ended source gap).readAll media texts
  have none : Statement.readAll (gap.commented source) media (gap.frame source).tail = [] :=
    Statement.readAll_of_end rfl
  rw [blank.extend_tokensOf, none, List.append_nil] at read
  rwa [read]

/-- The texts of all rulesets stay if the white space stands in no value of theirs. -/
theorem texts_commented (blank : gap.Blank source) {media : List String}
    (outside : gap.inValue (Statement.values source media (tokensOf source)) = false) :
    (Statement.readAll (gap.commented source) media
        (tokensOf (gap.commented source))).flatMap Statement.texts =
      (Statement.readAll source media (tokensOf source)).flatMap Statement.texts := by
  have values := (ended source gap).values source (gap.commented source) media rfl
  rw [blank.extend_tokensOf] at values
  rw [Statement.texts_readAll, Statement.texts_readAll, values.moved, List.map_map]
  refine List.map_congr_left fun value mem => ?_
  obtain ⟨start, inside, cut⟩ := values.cut value mem
  obtain same | ⟨within, -⟩ := blank.valueText_commented inside cut mem
  · exact same.symm
  · rw [outside] at within
    cases within

end Token.Blank

namespace Store

/-- A comment in the place of white space. -/
theorem add_commented (store : Store) (sheet : SheetId) {source : List UInt8} {gap : Token}
    (blank : gap.Blank source) :
    (store.readText (gap.commented source)).invalid = (store.readText source).invalid ∧
      List.Forall₂
        (Statement.Alike fun one other => one = other ∨ gap.Parted source one other)
        (store.readText source).statements (store.readText (gap.commented source)).statements ∧
      (gap.inValue (Statement.values source store.media (tokensOf source)) = false →
        (store.readText (gap.commented source)).counts = (store.readText source).counts ∧
          store.add sheet (gap.commented source) = store.add sheet source) := by
  have invalid : (store.readText (gap.commented source)).invalid =
      (store.readText source).invalid := blank.invalidCount_commented
  have alike := blank.readAll_commented store.media
  refine ⟨invalid, alike, fun outside => ?_⟩
  have bare : (store.readText (gap.commented source)).bare = (store.readText source).bare := by
    rw [SheetText.bare, SheetText.bare, invalid]
    exact congrArg (SheetText.mk · _)
      (Statement.map_bare_of_texts alike (blank.texts_commented outside))
  constructor
  · rw [← SheetText.counts_bare, bare, SheetText.counts_bare]
  · rw [add, add, ← addText_bare, bare, addText_bare]

/-- Between two components of a shorthand the comment makes them one, and the shorthand sets
nothing. -/
theorem add_commented_list_style :
    let source := Ascii.bytes "p\x7blist-style:square inside\x7d"
    let gap : Token := ⟨.space, 19, [Ascii.byte ' ']⟩
    let sheet : SheetId := ⟨.author, 1⟩
    let store := Store.empty Store.screenMedia
    gap.Blank source ∧ gap.commented source = Ascii.bytes "p\x7blist-style:square/**/inside\x7d" ∧
      (store.readText source).counts = ⟨1, 0, 0, 0⟩ ∧
      (store.readText (gap.commented source)).counts = ⟨0, 0, 0, 0⟩ ∧
      (store.add sheet source).size = 1 ∧ (store.add sheet (gap.commented source)).size = 0 := by
  intro source gap sheet store
  have blank : gap.Blank source := ⟨by decide +kernel, rfl, List.forall_mem_singleton.mpr rfl⟩
  exact ⟨blank, by decide +kernel, by decide +kernel, by decide +kernel, by decide +kernel,
    by decide +kernel⟩

/-- The comment between two compounds of a selector is white space. -/
theorem add_commented_selector :
    let source := Ascii.bytes "p q\x7bmargin:1px 2px\x7d"
    let gap : Token := ⟨.space, 1, [Ascii.byte ' ']⟩
    let sheet : SheetId := ⟨.author, 1⟩
    let store := Store.empty Store.screenMedia
    gap.Blank source ∧
      gap.inValue (Statement.values source store.media (tokensOf source)) = false ∧
      (store.readText (gap.commented source)).counts = (store.readText source).counts ∧
      store.add sheet (gap.commented source) = store.add sheet source := by
  intro source gap sheet store
  have blank : gap.Blank source := ⟨by decide +kernel, rfl, List.forall_mem_singleton.mpr rfl⟩
  have outside : gap.inValue (Statement.values source store.media (tokensOf source)) = false := by
    decide +kernel
  exact ⟨blank, outside, (add_commented store sheet blank).2.2 outside⟩

end Store

end StyleCascade
