import StyleCascade.Document.View
import StyleCascade.Proofs.Document.Forest
import StyleCascade.Proofs.Selector.Frame
import StyleCascade.Proofs.Text.Plain
import StyleCascade.Selector.Matching

namespace StyleCascade

namespace Text

/-- Outside ASCII, each character is its own lowercase form. -/
def Caseless (text : String) : Prop :=
  ∀ c ∈ text.toList, 128 ≤ c.toNat → lowercase (String.singleton c) = String.singleton c

instance (text : String) : Decidable (Caseless text) :=
  List.decidableBAll _ text.toList

theorem lowercase_singleton_iff (c : Char) :
    lowercase (String.singleton c) = String.singleton c ↔ lowerForm [] c [] = [c] := by
  rw [lowercase, ← String.toList_inj, String.toList_ofList, String.toList_singleton, lowerFrom,
    lowerFrom, List.append_nil]

/-- Capital sigma and dotted capital I are not their own forms, wherever they stand. -/
theorem lowerForm_append_eq_iff {before after more rest : List Char} {c : Char} :
    lowerForm before c after ++ more = c :: rest ↔ lowerForm [] c [] = [c] ∧ more = rest := by
  by_cases sigma : c = 'Σ'
  · subst sigma
    have apart : ∀ ends : Bool, (if ends then 'ς' else 'σ') ≠ 'Σ' := by decide
    simp [lowerForm, apart]
  by_cases dotted : c = 'İ'
  · subst dotted
    simp [lowerForm]
  · simp [lowerForm, sigma, dotted]

/-- The two ways to lower case agree on a text exactly when its characters past the first table have
no other lower form. -/
theorem lowerFrom_eq_iff {before chars : List Char} :
    lowerFrom before chars = chars.map Char.toLower ↔
      ∀ c ∈ chars, 128 ≤ c.toNat → lowerForm [] c [] = [c] := by
  induction chars generalizing before with
  | nil => simp [lowerFrom]
  | cons c rest ih =>
    rw [lowerFrom, List.map_cons, List.forall_mem_cons]
    rcases Nat.lt_or_ge c.toNat 128 with small | beyond
    · have notSigma : c ≠ 'Σ' := fun same => absurd (same ▸ small) (by decide)
      have notDotted : c ≠ 'İ' := fun same => absurd (same ▸ small) (by decide)
      have form : lowerForm before c rest = [c.toLower] := by
        simp only [lowerForm, notSigma, notDotted, if_false, lowerChar, small, if_true]
      have none : 128 ≤ c.toNat → lowerForm [] c [] = [c] := fun beyond => by omega
      rw [form, List.singleton_append, List.cons.injEq, ih]
      exact ⟨fun same => ⟨none, same.2⟩, fun all => ⟨rfl, all.2⟩⟩
    · rw [toLower_of_beyond (Nat.lt_of_lt_of_le (by decide) beyond), lowerForm_append_eq_iff, ih]
      exact and_congr_left fun _ => ⟨fun form _ => form, fun form => form beyond⟩

/-- The two ways to lowercase a name agree just if they differ on none of its characters. -/
theorem lowercase_eq_lower_iff (text : String) :
    lowercase text = Ascii.lower text ↔ Caseless text := by
  rw [lowercase, Ascii.lower, ← String.toList_inj, String.toList_ofList, String.toList_ofList,
    lowerFrom_eq_iff]
  simp only [Caseless, lowercase_singleton_iff]

end Text

section

variable {name : String}

/-- A name without escapes is what its token writes. -/
theorem Token.identifier_encode (plain : '\\' ∉ name.toList) (kind : TokenKind) (offset : Nat) :
    Token.identifier ⟨kind, offset, Utf8.encode name⟩ = name := by
  have text : Token.text ⟨kind, offset, Utf8.encode name⟩ = name := Utf8.text_encode name
  rw [Token.identifier, text, Component.unescapeText, Component.unescape_of_plain plain,
    String.ofList_toList]

/-- A name that is one identifier is one token. -/
theorem tokensOf_name
    (ident : scan (Utf8.encode name) = .token .ident (Utf8.encode name).length) :
    tokensOf (Utf8.encode name) = [⟨.ident, 0, Utf8.encode name⟩] := by
  rw [tokensOf, Lexeme.read, Lexeme.readFrom_of_token ident, List.take_length, List.drop_length,
    Lexeme.readFrom_nil]
  rfl

/-- A bracketed name makes three tokens. -/
theorem tokensOf_bracketed
    (ident : scan (Utf8.encode name) = .token .ident (Utf8.encode name).length)
    (plain : '\\' ∉ name.toList) :
    tokensOf (Utf8.encode ("[" ++ name ++ "]")) =
      [⟨.openBracket, 0, [Ascii.byte '[']⟩, ⟨.ident, 1, Utf8.encode name⟩,
        ⟨.closeBracket, 1 + (Utf8.encode name).length, [Ascii.byte ']']⟩] := by
  have source : Utf8.encode ("[" ++ name ++ "]") =
      Ascii.byte '[' :: (Utf8.encode name ++ [Ascii.byte ']']) := by
    have opening : Utf8.encode "[" = [Ascii.byte '['] := by decide +kernel
    have closing : Utf8.encode "]" = [Ascii.byte ']'] := by decide +kernel
    rw [Utf8.encode_append, Utf8.encode_append, opening, closing, List.append_assoc]
    rfl
  have inner : scan (Utf8.encode name ++ [Ascii.byte ']']) =
      .token .ident (Utf8.encode name).length :=
    scan_append_ident ident
      (fun last => Utf8.byte_not_mem_encode (by decide) plain (List.mem_of_getLast? last))
      (fun _ head => by cases head; decide)
  rw [tokensOf, Lexeme.read, source, Lexeme.readFrom_mark Scan.mark_openBracket,
    Lexeme.readFrom_of_token inner, List.take_left, List.drop_left,
    Lexeme.readFrom_mark Scan.mark_closeBracket, Lexeme.readFrom_nil]
  rfl

namespace Selector

/-- A bare name is read as a tag, in lower case by the Unicode tables. -/
theorem read?_name
    (ident : scan (Utf8.encode name) = .token .ident (Utf8.encode name).length)
    (plain : '\\' ∉ name.toList) :
    read? name = some (⟨[.tag (Text.lowercase name)], []⟩, ⟨0, 0, 1⟩) := by
  have taken : take [⟨.ident, 0, Utf8.encode name⟩] = _ :=
    take_name rfl (by rw [takeConditions]) rfl
  rw [Token.identifier_encode plain] at taken
  have front : Token.skipSpace (tokensOf (Utf8.encode name)) = [⟨.ident, 0, Utf8.encode name⟩] := by
    rw [tokensOf_name ident]
    rfl
  rw [read?, front, taken]
  rfl

/-- So is the key in brackets. -/
theorem read?_bracketed
    (ident : scan (Utf8.encode name) = .token .ident (Utf8.encode name).length)
    (plain : '\\' ∉ name.toList) :
    read? ("[" ++ name ++ "]") = some (⟨[.present (Text.lowercase name)], []⟩, ⟨0, 1, 0⟩) := by
  let opening : Token := ⟨.openBracket, 0, [Ascii.byte '[']⟩
  let word : Token := ⟨.ident, 1, Utf8.encode name⟩
  let closing : Token := ⟨.closeBracket, 1 + (Utf8.encode name).length, [Ascii.byte ']']⟩
  have written : word.identifier = name := Token.identifier_encode plain _ _
  have asked : takeAttribute [word, closing] = .ok (.present (Text.lowercase name), []) := by
    rw [← written]
    rfl
  have condition : takeCondition? .openBracket [word, closing] =
      some (.ok ((.present (Text.lowercase name), .cls), [])) := by
    rw [takeCondition?, asked]
    rfl
  have conditions : takeConditions [opening, word, closing] =
      .ok ([(.present (Text.lowercase name), .cls)], []) := by
    rw [takeConditions_of_ok condition, takeConditions]
    rfl
  have taken : take [opening, word, closing] =
      .ok ((⟨[.present (Text.lowercase name)], []⟩, ⟨0, 1, 0⟩), []) := by
    have compound : takeCompound [opening, word, closing] =
        .ok ([(.present (Text.lowercase name), .cls)], []) := by
      simp [takeCompound, takeType, opening, conditions]
    have links : takeLinks [] = .ok ([], []) := takeLinks_of_none rfl
    rw [take, compound]
    simp only [bind, Except.bind, links]
    rfl
  have front : Token.skipSpace (tokensOf (Utf8.encode ("[" ++ name ++ "]"))) =
      [opening, word, closing] := by
    rw [tokensOf_bracketed ident plain]
    rfl
  rw [read?, front, taken]
  rfl

end Selector

end

namespace Document

theorem tag_addElement (doc : Document) (name : String) :
    (doc.addElement none name).tree.tag doc.size = Ascii.lower name := by
  have added : (doc.addElement none name).get? doc.size =
      some ⟨.element (Ascii.lower name) [], none, [], .none⟩ :=
    (get?_push (fun _ none => by cases none) doc.size).trans (if_pos rfl)
  have named : (doc.addElement none name).tag? doc.size = some (Ascii.lower name) := by
    rw [tag?_eq, added]
    rfl
  exact congrArg (Option.getD · "") named

/-- An element takes an attribute under the name with its ASCII letters in lowercase. -/
theorem attr?_setAttribute {doc : Document} {node : Nat} (element : doc.isElement node = true)
    (name value : String) :
    ∃ changed, doc.setAttribute? node name value = some changed ∧
      ∀ key, changed.attr? node key =
        if key = Ascii.lower name then some value else doc.attr? node key := by
  have known : doc.contains node = true := contains_iff.mpr (lt_size_of_isElement element)
  refine ⟨_, if_pos known, fun key => ?_⟩
  cases atNode : doc.get? node with
  | none => simp [isElement, tag?, atNode] at element
  | some found =>
    cases shape : found.content with
    | text text => simp [isElement, tag?, atNode, shape] at element
    | element tag attributes =>
      have before : doc.attr? node key = attributes.lookup key := by
        simp [attr?, atNode, shape]
      rw [before, attr?, get?_update, if_pos rfl, atNode]
      simp only [Option.map_some, shape, Content.setAttribute, Entries.lookup_put, beq_iff_eq]

end Document

namespace Selector

/-- An element that is added under a name is met by the selector of that name just if the name is in
lowercase wherever it is not ASCII; and so is an element that takes an attribute of the name, unless
it has had one under the lowercase name before. -/
theorem holds_name_iff {name : String}
    (ident : scan (Utf8.encode name) = .token .ident (Utf8.encode name).length)
    (plain : '\\' ∉ name.toList) :
    (∃ selector specificity, read? name = some (selector, specificity) ∧
      ∀ (doc : Document) (mode : MatchMode),
        selector.holds mode (doc.addElement none name).tree doc.size = true ↔
          Text.Caseless name) ∧
      ∃ selector specificity, read? ("[" ++ name ++ "]") = some (selector, specificity) ∧
        ∀ (doc : Document) (node : Nat) (value : String), doc.isElement node = true →
          ∃ changed, doc.setAttribute? node name value = some changed ∧
            ∀ mode : MatchMode, selector.holds mode changed.tree node = true ↔
              Text.Caseless name ∨ (doc.attr? node (Text.lowercase name)).isSome = true := by
  constructor
  · refine ⟨_, _, read?_name ident plain, fun doc mode => ?_⟩
    have single : holds ⟨[.tag (Text.lowercase name)], []⟩ mode
        (doc.addElement none name).tree doc.size =
          decide ((doc.addElement none name).tree.tag doc.size = Text.lowercase name) := by
      simp [holds, Compound.holds, Condition.holds, linksHold]
    rw [single, Document.tag_addElement, decide_eq_true_eq, eq_comm, Text.lowercase_eq_lower_iff]
  · refine ⟨_, _, read?_bracketed ident plain, fun doc node value element => ?_⟩
    obtain ⟨changed, given, attributes⟩ := Document.attr?_setAttribute element name value
    refine ⟨changed, given, fun mode => ?_⟩
    have single : holds ⟨[.present (Text.lowercase name)], []⟩ mode changed.tree node =
        (changed.attr? node (Text.lowercase name)).isSome := by
      simp [holds, Compound.holds, Condition.holds, linksHold, Document.tree]
    rw [single, attributes, ← Text.lowercase_eq_lower_iff]
    split
    · next same => exact iff_of_true rfl (Or.inl same)
    · next apart => exact (or_iff_right apart).symm

/-- The ASCII capitals are lowercased on both sides, and the other letter has only one form. -/
theorem holds_name_iff_sharp_s :
    let name := "STRAßE"
    scan (Utf8.encode name) = .token .ident (Utf8.encode name).length ∧ '\\' ∉ name.toList ∧
      Text.Caseless name ∧
      (∃ selector specificity, read? name = some (selector, specificity) ∧
        ∀ (doc : Document) (mode : MatchMode),
          selector.holds mode (doc.addElement none name).tree doc.size = true) ∧
      ∃ selector specificity, read? ("[" ++ name ++ "]") = some (selector, specificity) ∧
        ∀ (doc : Document) (node : Nat) (value : String), doc.isElement node = true →
          ∃ changed, doc.setAttribute? node name value = some changed ∧
            ∀ mode : MatchMode, selector.holds mode changed.tree node = true := by
  intro name
  have ident : scan (Utf8.encode name) = .token .ident (Utf8.encode name).length := by
    decide +kernel
  have plain : '\\' ∉ name.toList := by decide +kernel
  have caseless : Text.Caseless name := by decide +kernel
  obtain ⟨⟨tag, one, readTag, tagged⟩, key, other, readKey, keyed⟩ := holds_name_iff ident plain
  refine ⟨ident, plain, caseless, ⟨tag, one, readTag, fun doc mode => ?_⟩,
    key, other, readKey, fun doc node value element => ?_⟩
  · exact (tagged doc mode).mpr caseless
  · obtain ⟨changed, given, holds⟩ := keyed doc node value element
    exact ⟨changed, given, fun mode => (holds mode).mpr (Or.inl caseless)⟩

/-- A capital outside ASCII has a lowercase form, but not in a document. -/
theorem holds_name_capital_e_acute :
    let name := "É"
    let doc := Document.empty.addElement none name
    scan (Utf8.encode name) = .token .ident (Utf8.encode name).length ∧ '\\' ∉ name.toList ∧
      (∃ selector specificity, read? name = some (selector, specificity) ∧
        selector.holds .dynamic doc.tree 0 = false) ∧
      ∃ selector specificity changed, read? ("[" ++ name ++ "]") = some (selector, specificity) ∧
        doc.setAttribute? 0 name "x" = some changed ∧
        selector.holds .dynamic changed.tree 0 = false := by
  intro name doc
  have ident : scan (Utf8.encode name) = .token .ident (Utf8.encode name).length := by
    decide +kernel
  have plain : '\\' ∉ name.toList := by decide +kernel
  exact ⟨ident, plain, ⟨_, _, read?_name ident plain, by decide +kernel⟩,
    _, _, _, read?_bracketed ident plain, rfl, by decide +kernel⟩

end Selector

end StyleCascade
