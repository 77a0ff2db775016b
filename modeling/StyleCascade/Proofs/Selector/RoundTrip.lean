import StyleCascade.Proofs.Selector.Plain

namespace StyleCascade

namespace Selector

open Grammar

section

variable {behind : List UInt8}

/-- Tokens that derive conditions by a rule of the grammar, whatever the weights. -/
def Derives (rule : List Token → List Weighted → Prop) (conditions : List Condition)
    (tokens : List Token) : Prop :=
  ∃ weighted, rule tokens weighted ∧ weighted.map Prod.fst = conditions

/-- Links without the weights of their conditions. -/
def bare (links : List (Combinator × List Weighted)) : List (Combinator × Compound) :=
  links.map fun link => (link.1, link.2.map Prod.fst)

/-- Tokens that derive further compounds, each behind its combinator. -/
def LinksOf (links : List (Combinator × Compound)) (tokens : List Token) : Prop :=
  ∃ weighted, Links tokens weighted ∧ bare weighted = links

/-- The bytes of conditions in a row. -/
def bytesOf (conditions : List Condition) : List UInt8 :=
  conditions.flatMap fun condition => Utf8.encode condition.text

theorem bytesOf_singleton (condition : Condition) :
    bytesOf [condition] = Utf8.encode condition.text :=
  List.flatMap_singleton _ _

/-- The induction over a run of conditions. Every condition begins with a byte that cuts the one
before it. -/
theorem written_simples {tokens : List Token} {conditions : List Weighted}
    (simples : Simples tokens conditions) (alone : ∀ token ∈ tokens, token.Alone)
    (plain : ∀ weighted ∈ conditions, weighted.1.Plain) (cut : Cut behind) :
    WrittenBefore behind (bytesOf (conditions.map Prod.fst))
        (Derives Simples (conditions.map Prod.fst)) ∧
      Cut (bytesOf (conditions.map Prod.fst) ++ behind) := by
  induction simples with
  | nil => exact ⟨.nil ⟨[], .nil, rfl⟩, cut⟩
  | @cons front rest condition more first _ ih =>
    obtain ⟨aloneFirst, aloneOthers⟩ := List.forall_mem_append.mp alone
    obtain ⟨plainFirst, plainOthers⟩ := List.forall_mem_cons.mp plain
    obtain ⟨others, cutOthers⟩ := ih aloneOthers plainOthers
    have written := written_simple first aloneFirst plainFirst cutOthers
    rw [List.map_cons, bytesOf, List.flatMap_cons, ← bytesOf]
    constructor
    · refine written.append others ?_
      rintro one rest ⟨weight, simple⟩ ⟨weighted, simples, same⟩
      exact ⟨(condition.1, weight) :: weighted, .cons simple simples, by rw [List.map_cons, same]⟩
    · rw [List.append_assoc]
      exact Means.cut written

theorem written_head {tokens : List Token} {type : List Weighted} (head : Head tokens type)
    (plain : ∀ weighted ∈ type, weighted.1.Plain) (cut : Cut behind) :
    WrittenBefore behind (bytesOf (type.map Prod.fst)) (Derives Head (type.map Prod.fst)) := by
  cases head with
  | none => exact .nil ⟨[], .none, rfl⟩
  | @name word ident =>
    have tagged := plain _ List.mem_cons_self
    have plain : Text.IsPlain (Text.lowercase word.identifier) := tagged.of_tag
    have lowered := plain.lowercase_lowercase
    rw [List.map_singleton]
    generalize Text.lowercase word.identifier = name at plain lowered ⊢
    rw [bytesOf_singleton]
    refine (WrittenBefore.plain plain cut).imp ?_
    rintro _ ⟨token, rfl, ident, rfl⟩
    have same : token.identifier = token.text :=
      Component.unescapeText_of_plain (plain.not_mem (by decide))
    refine ⟨_, .name ident, ?_⟩
    rw [List.map_singleton, same, lowered]
  | any star =>
    have encoded : Utf8.encode Condition.universal.text = [Ascii.byte '*'] := rfl
    rw [List.map_singleton, bytesOf_singleton, encoded]
    have written : WrittenBefore behind [Ascii.byte '*'] (WrittenBefore.One .star) := .mark rfl
    refine written.imp ?_
    rintro _ ⟨mark, rfl, star⟩
    exact ⟨_, .any star, rfl⟩

/-- A compound with conditions is written as these in a row. -/
theorem encode_text {conditions : StyleCascade.Compound} (filled : conditions ≠ []) :
    Utf8.encode (Compound.text conditions) = bytesOf conditions := by
  have some : ¬conditions.isEmpty = true := fun empty => filled (List.isEmpty_iff.mp empty)
  rw [Compound.text, if_neg some, Utf8.encode_join, List.flatMap_map, bytesOf]

/-- A compound is a tag, or a star, or nothing, and a run of conditions. -/
theorem written_compound {tokens : List Token} {conditions : List Weighted}
    (compound : Grammar.Compound tokens conditions) (alone : ∀ token ∈ tokens, token.Alone)
    (plain : ∀ weighted ∈ conditions, weighted.1.Plain) (cut : Cut behind) :
    WrittenBefore behind (Utf8.encode (Compound.text (conditions.map Prod.fst)))
      (Derives Grammar.Compound (conditions.map Prod.fst)) := by
  have filled : conditions.map Prod.fst ≠ [] := fun empty =>
    compound.filled (List.map_eq_nil_iff.mp empty)
  rw [encode_text filled]
  obtain ⟨head, simples, -⟩ := compound
  obtain ⟨-, aloneOthers⟩ := List.forall_mem_append.mp alone
  obtain ⟨plainHead, plainOthers⟩ := List.forall_mem_append.mp plain
  obtain ⟨others, cutOthers⟩ := written_simples simples aloneOthers plainOthers cut
  rw [List.map_append] at filled ⊢
  rw [bytesOf, List.flatMap_append, ← bytesOf, ← bytesOf]
  refine (written_head head plainHead cutOthers).append others ?_
  rintro front rest ⟨type, head, sameType⟩ ⟨more, simples, sameMore⟩
  refine ⟨type ++ more, .mk head simples ?_, by rw [List.map_append, sameType, sameMore]⟩
  -- tokens that derive conditions are not empty
  intro empty
  obtain ⟨rfl, rfl⟩ := List.append_eq_nil_iff.mp empty
  rw [← sameType, ← sameMore, simples.eq_nil] at filled
  cases head with
  | none => exact filled rfl

/-- What is written for a compound begins with no white space. -/
theorem Derives.solid {source : List UInt8} {conditions : StyleCascade.Compound}
    (written : WrittenBefore behind source (Derives Grammar.Compound conditions)) :
    ∀ c ∈ (source ++ behind).head?, Ascii.isSpaceByte c = false := by
  have filled : ¬Derives Grammar.Compound conditions [] := by
    rintro ⟨_, compound, -⟩
    obtain ⟨_, _, empty, -⟩ := compound.front
    cases empty
  obtain ⟨token, rest, length, ⟨weighted, compound, -⟩, front⟩ := written.first filled
  obtain ⟨first, more, shape, start⟩ := compound.front
  cases shape
  refine solid_of_scan front fun space => ?_
  rw [space] at start
  revert start
  decide

/-- A mark between two spaces. -/
theorem written_spaced {b : UInt8} {kind : TokenKind}
    (single : ∀ later, scan (b :: later) = .token kind 1) (ink : Ascii.isSpaceByte b = false)
    (solid : ∀ c ∈ behind.head?, Ascii.isSpaceByte c = false) :
    WrittenBefore behind ([Ascii.byte ' '] ++ ([b] ++ [Ascii.byte ' '])) (fun tokens =>
      ∃ before sign after, tokens = before ++ sign :: after ∧ Token.Spaces before ∧
        sign.kind = kind ∧ Token.Spaces after) := by
  have later : WrittenBefore behind ([b] ++ [Ascii.byte ' ']) (fun tokens =>
      ∃ sign last, tokens = [sign, last] ∧ sign.kind = kind ∧ last.kind = .space) := by
    refine (WrittenBefore.mark (single _)).append (.gap solid) ?_
    rintro _ _ ⟨sign, rfl, same⟩ ⟨last, rfl, space⟩
    exact ⟨sign, last, rfl, same, space⟩
  have front : WrittenBefore (([b] ++ [Ascii.byte ' ']) ++ behind) [Ascii.byte ' '] _ :=
    .gap (fun _ head => by cases head; exact ink)
  refine front.append later ?_
  rintro _ _ ⟨gap, rfl, space⟩ ⟨sign, last, rfl, same, spaceLast⟩
  exact ⟨[gap], sign, [last], rfl, List.forall_mem_singleton.mpr space, same,
    List.forall_mem_singleton.mpr spaceLast⟩

/-- A combinator is written with space around it, which belongs to the combinator when it is read.
-/
theorem written_joint (combinator : Combinator)
    (solid : ∀ c ∈ behind.head?, Ascii.isSpaceByte c = false) :
    WrittenBefore behind (Utf8.encode combinator.text) (Joint · combinator) := by
  cases combinator with
  | descendant =>
    have encoded : Utf8.encode Combinator.descendant.text = [Ascii.byte ' '] := rfl
    rw [encoded]
    refine (WrittenBefore.gap solid).imp ?_
    rintro _ ⟨gap, rfl, space⟩
    exact .descendant (List.forall_mem_singleton.mpr space) (List.cons_ne_nil _ _)
  | child =>
    have encoded : Utf8.encode Combinator.child.text =
        [Ascii.byte ' '] ++ ([Ascii.byte '>'] ++ [Ascii.byte ' ']) := rfl
    rw [encoded]
    refine (written_spaced (fun _ => rfl) (by decide) solid).imp ?_
    rintro _ ⟨before, sign, after, rfl, spaced, greater, spacedAfter⟩
    exact .child spaced greater spacedAfter
  | adjacent =>
    have encoded : Utf8.encode Combinator.adjacent.text =
        [Ascii.byte ' '] ++ ([Ascii.byte '+'] ++ [Ascii.byte ' ']) := rfl
    rw [encoded]
    refine (written_spaced (fun _ => rfl) (by decide) solid).imp ?_
    rintro _ ⟨before, sign, after, rfl, spaced, plus, spacedAfter⟩
    exact .adjacent spaced plus spacedAfter

/-- The bytes of further compounds, each behind its combinator. -/
def linkBytes (links : List (Combinator × StyleCascade.Compound)) : List UInt8 :=
  links.flatMap fun link => Utf8.encode link.1.text ++ Utf8.encode (Compound.text link.2)

/-- The induction over the links of a chain. -/
theorem written_links {tokens : List Token} {links : List (Combinator × List Weighted)}
    (linked : Links tokens links) (alone : ∀ token ∈ tokens, token.Alone)
    (plain : ∀ link ∈ links, ∀ weighted ∈ link.2, weighted.1.Plain) (cut : Cut behind) :
    WrittenBefore behind (linkBytes (bare links)) (LinksOf (bare links)) ∧
      Cut (linkBytes (bare links) ++ behind) := by
  induction linked with
  | nil => exact ⟨.nil ⟨[], .nil, rfl⟩, cut⟩
  | @cons joint front rest combinator compound more joins next _ ih =>
    obtain ⟨-, aloneBehind⟩ := List.forall_mem_append.mp alone
    obtain ⟨aloneNext, aloneOthers⟩ := List.forall_mem_append.mp aloneBehind
    obtain ⟨plainNext, plainOthers⟩ := List.forall_mem_cons.mp plain
    obtain ⟨others, cutOthers⟩ := ih aloneOthers plainOthers
    have written := written_compound next aloneNext plainNext cutOthers
    have solid := Derives.solid written
    rw [← List.append_assoc] at solid
    have bytes : linkBytes (bare ((combinator, compound) :: more)) =
        Utf8.encode combinator.text ++
          (Utf8.encode (Compound.text (compound.map Prod.fst)) ++ linkBytes (bare more)) :=
      List.append_assoc ..
    have later : WrittenBefore behind _ (fun tokens => ∃ front rest, tokens = front ++ rest ∧
        Derives Grammar.Compound (compound.map Prod.fst) front ∧ LinksOf (bare more) rest) :=
      written.append others fun front rest next others => ⟨front, rest, rfl, next, others⟩
    rw [bytes]
    constructor
    · refine (written_joint combinator solid).append later ?_
      rintro joint _ joins ⟨front, rest, rfl, ⟨weighted, next, same⟩, links, linked, sameLinks⟩
      refine ⟨(combinator, weighted) :: links, .cons joins next linked, ?_⟩
      rw [bare, List.map_cons, same, ← bare, sameLinks]
      rfl
    · cases combinator <;> (rintro c ⟨⟩; rfl)

end

/-- A longer chain is written behind the shorter one. -/
theorem encode_text_extend (selector : Selector) (combinator : Combinator)
    (compound : StyleCascade.Compound) :
    Utf8.encode (selector.extend combinator compound).text =
      Utf8.encode selector.text ++
        (Utf8.encode combinator.text ++ Utf8.encode (Compound.text compound)) := by
  simp only [Selector.text, extend, List.reverse_cons, List.map_append, List.map_cons,
    List.map_nil, Utf8.encode_append, Utf8.encode_join, List.flatMap_append, List.flatMap_cons,
    List.flatMap_nil, List.append_nil, List.append_assoc]

section

variable (first : List Weighted) (links : List (Combinator × List Weighted))

/-- The selector of some compounds is grown link by link, outwards from the first. -/
theorem ofCompounds_eq_foldl : ofCompounds first links =
    (bare links).foldl (fun selector link => selector.extend link.1 link.2)
      ⟨first.map Prod.fst, []⟩ := by
  rw [ofCompounds, bare, List.foldl_map]

/-- The text of compounds lists them in their order. -/
theorem encode_text_ofCompounds : Utf8.encode (ofCompounds first links).text =
    Utf8.encode (Compound.text (first.map Prod.fst)) ++ linkBytes (bare links) := by
  have step (links : List (Combinator × StyleCascade.Compound)) (start : Selector) :
      Utf8.encode (links.foldl (fun selector link => selector.extend link.1 link.2) start).text =
        Utf8.encode start.text ++ linkBytes links := by
    induction links generalizing start with
    | nil => exact (List.append_nil _).symm
    | cons link links ih =>
      rw [List.foldl_cons, ih, encode_text_extend, linkBytes, linkBytes, List.flatMap_cons,
        List.append_assoc]
  rw [ofCompounds_eq_foldl, step]
  rfl

variable {first links}

theorem plain_of_ofCompounds (plain : (ofCompounds first links).Plain) :
    (∀ weighted ∈ first, weighted.1.Plain) ∧
      ∀ link ∈ links, ∀ weighted ∈ link.2, weighted.1.Plain := by
  have step (links : List (Combinator × StyleCascade.Compound)) (start : Selector)
      (plain : (links.foldl (fun selector link => selector.extend link.1 link.2) start).Plain) :
      start.Plain ∧ ∀ link ∈ links, ∀ condition ∈ link.2, condition.Plain := by
    induction links generalizing start with
    | nil => exact ⟨plain, fun _ none => by cases none⟩
    | cons link links ih =>
      obtain ⟨⟨compound, others⟩, more⟩ := ih _ plain
      obtain ⟨subject, behind⟩ := List.forall_mem_cons.mp others
      exact ⟨⟨subject, behind⟩, List.forall_mem_cons.mpr ⟨compound, more⟩⟩
  rw [ofCompounds_eq_foldl] at plain
  obtain ⟨⟨subject, -⟩, others⟩ := step _ _ plain
  exact ⟨fun weighted mem => subject _ (List.mem_map_of_mem mem), fun link mem weighted inside =>
    others _ (List.mem_map_of_mem mem) _ (List.mem_map_of_mem inside)⟩

end

/-- The text of a selector that was read is read as the same selector, if its names are plain. -/
theorem read?_text {text : String} {selector : Selector} {specificity : Specificity}
    (read : read? text = some (selector, specificity)) (plain : selector.Plain) :
    (read? selector.text).map Prod.fst = some selector := by
  obtain ⟨first, links, padded, same⟩ := padded_of_read? read
  obtain ⟨rfl, -⟩ := Prod.mk.inj same
  obtain ⟨plainFirst, plainLinks⟩ := plain_of_ofCompounds plain
  have alone : ∀ token ∈ tokensOf (Utf8.encode text), token.Alone := fun _ => Token.alone_of_mem
  generalize tokensOf (Utf8.encode text) = tokens at padded alone
  obtain ⟨-, ⟨compound, linked⟩, -⟩ := padded
  obtain ⟨-, aloneComplex⟩ := List.forall_mem_append.mp alone
  obtain ⟨aloneTokens, -⟩ := List.forall_mem_append.mp aloneComplex
  obtain ⟨aloneFirst, aloneLinks⟩ := List.forall_mem_append.mp aloneTokens
  obtain ⟨others, cut⟩ := written_links linked aloneLinks plainLinks .nil
  have written : WrittenBefore [] (Utf8.encode (ofCompounds first links).text) (fun tokens =>
      ∃ again others, Padded tokens again others ∧ again.map Prod.fst = first.map Prod.fst ∧
        bare others = bare links) := by
    rw [encode_text_ofCompounds]
    refine (written_compound compound aloneFirst plainFirst cut).append others ?_
    rintro front rest ⟨again, compound, sameFirst⟩ ⟨others, linked, sameLinks⟩
    have padded : Padded ([] ++ (front ++ rest ++ [])) again others :=
      .mk .nil (.mk compound linked) .nil
    rw [List.nil_append, List.append_nil] at padded
    exact ⟨again, others, padded, sameFirst, sameLinks⟩
  obtain ⟨again, others, padded, sameFirst, sameLinks⟩ := written.tokensOf
  rw [read?_of_padded padded, Option.map_some, ofCompounds_eq_foldl, ofCompounds_eq_foldl,
    sameFirst, sameLinks]

/-- An identifier between brackets comes back in its short form, an argument without its spaces. -/
theorem read?_text_of_nav :
    let text := " NAV[ID='top'] >LI.a_b [Data-X|=q]:Lang( EN )+*:nth-child(2):Hover::Before"
    let selector : Selector :=
      ⟨[.universal, .pseudoClass (.other "nth-child(2)"), .pseudoClass .hover,
          .pseudoElement .before],
        [(.adjacent, [.hyphened "data-x" "q", .pseudoClass (.lang "en")]),
          (.descendant, [.tag "li", .listed "class" "a_b"]),
          (.child, [.tag "nav", .equal "id" "top"])]⟩
    read? text = some (selector, ⟨0, 6, 3⟩) ∧ selector.Plain ∧
      (read? selector.text).map Prod.fst = some selector := by
  intro text selector
  have read : read? text = some (selector, ⟨0, 6, 3⟩) := by decide +kernel
  have function : Text.IsPlain "nth-child" := by decide
  have argument : Text.IsPlain "2" := by decide
  have subject : ∀ condition ∈ selector.subject, condition.Plain := by
    simp only [selector, List.forall_mem_cons]
    exact ⟨.universal, .pseudoClass (.call function argument (by decide)),
      .pseudoClass .hover, .pseudoElement .before, List.forall_mem_nil _⟩
  have links : ∀ link ∈ selector.links, ∀ condition ∈ link.2, condition.Plain := by
    simp only [selector, List.forall_mem_cons]
    exact ⟨⟨.hyphened (by decide) (by decide),
        .pseudoClass (.lang (by decide)), List.forall_mem_nil _⟩,
      ⟨.tag (by decide), .listed (by decide) (by decide),
        List.forall_mem_nil _⟩,
      ⟨.tag (by decide), .equal (by decide) (by decide),
        List.forall_mem_nil _⟩, List.forall_mem_nil _⟩
  exact ⟨read, ⟨subject, links⟩, read?_text read ⟨subject, links⟩⟩

end Selector

end StyleCascade
