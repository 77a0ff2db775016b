import StyleCascade.Proofs.Selector.Frame
import StyleCascade.Proofs.Sheet.Inline
import StyleCascade.Proofs.Sheet.Order

namespace StyleCascade

/-- A rule for paragraphs with some declarations. -/
def paragraphRule (declarations : List UInt8) : List UInt8 :=
  Ascii.bytes "p\x7b" ++ declarations ++ [Ascii.byte '\x7d']

namespace Token

/-- The rest of a block without blocks in it is passed over up to its brace. -/
theorem skipStatement_close {tokens : List Token} {brace : Token}
    (flat : ∀ token ∈ tokens, token.kind ≠ .openBrace ∧ token.kind ≠ .closeBrace)
    (close : brace.kind = .closeBrace) (rest : List Token) :
    skipStatement 1 (tokens ++ brace :: rest) = rest := by
  induction tokens with
  | nil => exact skipStatement_close_one close
  | cons token more ih =>
    obtain ⟨noOpen, noClose⟩ := flat token List.mem_cons_self
    have inner : ¬(token.kind = .semicolon ∧ 1 = 0) := fun outer => absurd outer.2 (by decide)
    rw [List.cons_append, skipStatement_other noOpen noClose inner]
    exact ih fun other mem => flat other (List.mem_cons_of_mem token mem)

/-- A rule without blocks in its block is passed over with its brace. -/
theorem recover_rule {word opening brace : Token} {tokens : List Token} (named : word.kind = .ident)
    (opens : opening.kind = .openBrace)
    (flat : ∀ token ∈ tokens, token.kind ≠ .openBrace ∧ token.kind ≠ .closeBrace)
    (close : brace.kind = .closeBrace) : recover (word :: opening :: (tokens ++ [brace])) = [] := by
  rw [recover, if_neg (by rw [named]; decide),
    skipStatement_other (by rw [named]; decide) (by rw [named]; decide) (by rw [named]; decide),
    skipStatement_open opens]
  exact skipStatement_close flat close []

end Token

namespace InlineStyle

/-- There is no fault if the first run comes to the end. -/
theorem faults_eq_zero_iff (source : List UInt8) :
    (read source).faults = 0 ↔
      (DeclarationRun.read source none (tokensOf source)).stop = none := by
  have faults := (DeclarationRun.readAll_joins source (tokensOf source)).faults
  rw [DeclarationRun.faultCount_cons] at faults
  have total : (read source).faults = _ := faults
  cases stop : (DeclarationRun.read source none (tokensOf source)).stop with
  | none =>
    rw [stop, DeclarationRun.afterFault, stop] at total
    exact ⟨fun _ => rfl, fun _ => total⟩
  | some fault =>
    rw [stop, Option.toList_some, List.length_singleton] at total
    exact ⟨fun none => by omega, fun none => by cases none⟩

/-- A block that was read to its end keeps every declaration, whatever faults stood among them. -/
theorem sets_of_ends {source : List UInt8}
    (ends : (DeclarationRun.read source none (tokensOf source)).stop = none) :
    (read source).sets =
      DeclaredSets.ofList (DeclarationRun.read source none (tokensOf source)).declarations := by
  have declared := (DeclarationRun.readAll_joins source (tokensOf source)).declarations
  rw [DeclarationRun.afterFault, ends, List.flatMap_singleton, List.flatMap_nil,
    List.append_nil] at declared
  exact congrArg DeclaredSets.ofList declared

end InlineStyle

namespace Selector

/-- A name in front of a brace is the whole selector. -/
theorem takeList_name {word brace : Token} (ident : word.kind = .ident)
    (opening : brace.kind = .openBrace) (rest : List Token) :
    takeList (word :: brace :: rest) =
      .ok ([(⟨[.tag (Text.lowercase word.identifier)], []⟩, ⟨0, 0, 1⟩)], brace :: rest) := by
  have solid : brace.kind ≠ .space := by rw [opening]; decide
  have spaced : Token.skipSpace (brace :: rest) = brace :: rest := by
    simp [Token.skipSpace, solid]
  have conditions : takeConditions (brace :: rest) = .ok ([], brace :: rest) :=
    takeConditions_of_none (by rw [opening]; rfl)
  have last : takeCombinator? (brace :: rest) = none := by
    simp only [takeCombinator?, spaced, opening]
  have taken := take_name ident conditions last
  rw [spaced] at taken
  rw [takeList_of_ok taken spaced, if_neg (by rw [opening]; decide), if_pos opening]

end Selector

/-- The tokens of a rule are those of its selector, its braces, and the declarations in between. -/
theorem tokensOf_paragraphRule {declarations : List UInt8}
    (last : (tokensOf (declarations ++ [Ascii.byte '\x7d'])).getLast? =
      some ⟨.closeBrace, declarations.length, [Ascii.byte '\x7d']⟩) :
    tokensOf (paragraphRule declarations) =
      ⟨.ident, 0, [Ascii.byte 'p']⟩ :: ⟨.openBrace, 1, [Ascii.byte '\x7b']⟩ ::
        ((tokensOf declarations).map (Token.shift 2) ++
          [⟨.closeBrace, 2 + declarations.length, [Ascii.byte '\x7d']⟩]) := by
  let block := declarations ++ [Ascii.byte '\x7d']
  have parts : paragraphRule declarations = [Ascii.byte 'p'] ++ Ascii.byte '\x7b' :: block := by
    have front : Ascii.bytes "p\x7b" = [Ascii.byte 'p', Ascii.byte '\x7b'] := by decide
    rw [paragraphRule, front]
    rfl
  have name : scan ([Ascii.byte 'p'] ++ Ascii.byte '\x7b' :: block) = .token .ident 1 :=
    scan_append_ident (by decide) (by decide) (fun _ head => by cases head; decide)
  have inner : tokensOf block =
      tokensOf declarations ++ [⟨.closeBrace, declarations.length, [Ascii.byte '\x7d']⟩] := by
    rw [tokensOf_append_mark Scan.mark_closeBrace last [], tokensOf_nil, List.map_nil]
  have lexemes : Lexeme.read (paragraphRule declarations) =
      .token ⟨.ident, 0, [Ascii.byte 'p']⟩ :: .token ⟨.openBrace, 1, [Ascii.byte '\x7b']⟩ ::
        (Lexeme.read block).map (Lexeme.shift 2) := by
    have behind := Lexeme.readFrom_mark Scan.mark_openBrace 1 block
    rw [Lexeme.readFrom_eq_shift (1 + 1)] at behind
    rw [parts, Lexeme.read, Lexeme.readFrom_of_token name]
    exact congrArg _ behind
  rw [tokensOf, lexemes, Lexeme.tokens_token, Lexeme.tokens_token, Lexeme.tokens_shift, ← tokensOf,
    inner, List.map_append]
  rfl

namespace Statement

variable {declarations : List UInt8}

/-- The rule for paragraphs is read up to its end, or costs one fault. -/
theorem readAll_paragraphRule (media : List String)
    (flat : ∀ token ∈ tokensOf declarations,
      token.kind ≠ .openBrace ∧ token.kind ≠ .closeBrace)
    (last : (tokensOf (declarations ++ [Ascii.byte '\x7d'])).getLast? =
      some ⟨.closeBrace, declarations.length, [Ascii.byte '\x7d']⟩) :
    let run := DeclarationRun.read declarations none (tokensOf declarations)
    let source := paragraphRule declarations
    match run.stop with
    | none =>
      readAll source media (tokensOf source) =
        [.ruleset [(⟨[.tag "p"], []⟩, ⟨0, 0, 1⟩)] run.declarations]
    | some cause => ∃ place,
      readAll source media (tokensOf source) = [.fault run.declarations place cause] := by
  intro run source
  let word : Token := ⟨.ident, 0, [Ascii.byte 'p']⟩
  let opening : Token := ⟨.openBrace, 1, [Ascii.byte '\x7b']⟩
  let brace : Token := ⟨.closeBrace, 2 + declarations.length, [Ascii.byte '\x7d']⟩
  let frame := Frame.within (Ascii.bytes "p\x7b") (tokensOf declarations) [brace]
  have tokens : tokensOf source = word :: opening :: frame.extend (tokensOf declarations) :=
    tokensOf_paragraphRule last
  have stopped : frame.Stopped := rfl
  have texts : frame.Texts declarations source Eq :=
    Frame.texts_within _ [Ascii.byte '\x7d'] (fun _ mem => stop_le_of_mem_tokensOf mem)
  have inside : tokensOf declarations <:+ frame.tokens := List.suffix_refl _
  let next := DeclarationRun.read source (some .closeBrace) [brace]
  have block : DeclarationRun.read source (some .closeBrace)
      (frame.extend (tokensOf declarations)) = run.followed frame next :=
    DeclarationRun.read_extend stopped texts inside fun token mem same =>
      (flat token mem).2 (Option.some.inj same).symm
  have ends : next = ⟨[], none, [brace]⟩ := by
    have front : Token.skipSpace [brace] = [brace] := rfl
    exact (DeclarationRun.read_of_front front).trans (if_pos rfl)
  have name : Text.lowercase word.identifier = "p" := by decide +kernel
  have selectors : Selector.takeList (word :: opening :: frame.extend (tokensOf declarations)) =
      .ok ([(⟨[.tag "p"], []⟩, ⟨0, 0, 1⟩)], opening :: frame.extend (tokensOf declarations)) := by
    rw [Selector.takeList_name rfl rfl, name]
  have outer : takeOuter source media word (opening :: frame.extend (tokensOf declarations)) =
      takeBlock source [(⟨[.tag "p"], []⟩, ⟨0, 0, 1⟩)] (frame.extend (tokensOf declarations)) := by
    rw [takeOuter, takePlain, takeRuleset, selectors]
    rfl
  rw [tokens, readAll_of_front rfl, outer, takeBlock, block, ends]
  cases stop : run.stop with
  | none =>
    simp only [DeclarationRun.followed, stop, List.append_nil, settle, dropClose]
    exact congrArg _ (readAll_of_end rfl)
  | some cause =>
    have moved : ∀ token ∈ (tokensOf declarations).map frame.move,
        token.kind ≠ .openBrace ∧ token.kind ≠ .closeBrace := by
      intro token mem
      obtain ⟨near, listed, rfl⟩ := List.mem_map.mp mem
      rw [frame.kind_move]
      exact flat near listed
    have passed : Token.recover (word :: opening :: frame.extend (tokensOf declarations)) = [] :=
      Token.recover_rule rfl rfl moved rfl
    simp only [DeclarationRun.followed, stop, settle, passed]
    exact ⟨_, congrArg _ (readAll_of_end rfl)⟩

end Statement

/-- An important declaration wins over a normal one whatever the rest of their keys says. -/
theorem CascadeKey.not_beats_important {normal important : CascadeKey}
    (weak : normal.important = false) (strong : important.important = true) :
    normal.beats important = false := by
  have stronger : important.beats normal = true := by
    simp [beats, rank, weak, strong, List.cons_lt_cons_iff]
  exact not_beats_of_beats stronger

namespace Store

/-- A ruleset with one selector puts at most two rules in a store, the important one first. -/
theorem addRuleset_single (selector : Selector × Specificity) {tag : String}
    (subject : selector.1.subjectTag? = some tag) (media : List String) (sheet : SheetId)
    (sets : DeclaredSets) :
    let store := (empty media).addRuleset sheet [selector] sets
    store.links = [] ∧ store.rules = store.rulesOf tag ∧
      (store.rulesOf tag).map (fun rule => (rule.important, rule.properties)) =
        [(true, sets.important), (false, sets.normal)].filter (fun entry => !entry.2.isEmpty) ∧
      ∀ rule ∈ store.rulesOf tag,
        rule.sheet = sheet ∧ rule.selector = selector.1 ∧ rule.specificity = selector.2 := by
  intro store
  have single (store : Store) (priority : Priority) (properties : PropertySet) :
      store.addBlock priority properties [selector] =
        if properties.isEmpty then store
        else
          (store.notePriority priority).addRule priority properties store.nextSequence selector :=
    rfl
  have order (normal important : Rule) (weak : normal.important = false)
      (strong : important.important = true) :
      CascadeKey.place Rule.key important [normal] = [important, normal] := by
    have stays : (Rule.key normal).beats (Rule.key important) = false :=
      CascadeKey.not_beats_important weak strong
    rw [CascadeKey.place, stays, if_neg Bool.false_ne_true]
  cases normal : sets.normal.isEmpty <;> cases important : sets.important.isEmpty <;>
    simp [store, addRuleset, single, normal, important, addRule, notePriority, insert, subject,
      rulesOf, rules, empty, Entries.put, CascadeKey.place, order]

/-- A rule for paragraphs adds the property sets that its declarations give as an inline style. If
these have a fault, it adds nothing and counts as one. -/
theorem add_paragraphRule (media : List String) (sheet : SheetId) {declarations : List UInt8}
    (flat : ∀ token ∈ tokensOf declarations,
      token.kind ≠ .openBrace ∧ token.kind ≠ .closeBrace)
    (last : (tokensOf (declarations ++ [Ascii.byte '\x7d'])).getLast? =
      some ⟨.closeBrace, declarations.length, [Ascii.byte '\x7d']⟩) :
    let style := InlineStyle.read declarations
    let source := paragraphRule declarations
    let store := (empty media).add sheet source
    let counts := ((empty media).readText source).counts
    (style.faults = 0 →
      counts.syntaxFaults = 0 ∧ store.links = [] ∧ store.rules = store.rulesOf "p" ∧
        (store.rulesOf "p").map (fun rule => (rule.important, rule.properties)) =
          style.entries ∧
        ∀ rule ∈ store.rulesOf "p", rule.sheet = sheet ∧
          rule.selector = ⟨[.tag "p"], []⟩ ∧ rule.specificity = ⟨0, 0, 1⟩) ∧
      (0 < style.faults → counts.syntaxFaults = 1 ∧ store = empty media) := by
  intro style source store counts
  have clean := InlineStyle.faults_eq_zero_iff declarations
  have read := Statement.readAll_paragraphRule (empty media).media flat last
  simp only at read
  cases stop : (DeclarationRun.read declarations none (tokensOf declarations)).stop with
  | none =>
    rw [stop] at read
    have statements : ((empty media).readText source).statements = _ := read
    have none : style.faults = 0 := clean.mpr stop
    have sets := InlineStyle.sets_of_ends stop
    have stored : store = (empty media).addRuleset sheet [(⟨[.tag "p"], []⟩, ⟨0, 0, 1⟩)]
        style.sets := by
      show (empty media).addText sheet ((empty media).readText source) = _
      rw [addText, statements, sets]
      rfl
    have rules := addRuleset_single (⟨[.tag "p"], []⟩, ⟨0, 0, 1⟩) rfl media sheet style.sets
    simp only [← stored] at rules
    refine ⟨fun _ => ⟨?_, rules⟩, fun some => by omega⟩
    simp only [counts, SheetText.counts, statements]
    rfl
  | some cause =>
    rw [stop] at read
    obtain ⟨place, statements⟩ := read
    replace statements : ((empty media).readText source).statements = _ := statements
    have some : style.faults ≠ 0 := fun none => by
      rw [clean.mp none] at stop
      cases stop
    refine ⟨fun none => absurd none some, fun _ => ⟨?_, ?_⟩⟩
    · simp only [counts, SheetText.counts, statements]
      rfl
    · show (empty media).addText sheet ((empty media).readText source) = _
      rw [addText, statements]
      rfl

/-- The second rule has a declaration without a colon, and none of it stays. -/
theorem add_paragraphRule_clean_and_faulty :
    let clean := Ascii.bytes "color: red; float: left !important"
    let faulty := Ascii.bytes "color: red; width 3px; float: left"
    let sheet : SheetId := ⟨.author, 1⟩
    let store := (empty screenMedia).add sheet (paragraphRule clean)
    ((InlineStyle.read clean).faults = 0 ∧ store.rules = store.rulesOf "p" ∧
        (store.rulesOf "p").map (fun rule => (rule.important, rule.properties)) =
          (InlineStyle.read clean).entries ∧ store.size = 2) ∧
      (InlineStyle.read faulty).faults = 1 ∧
      ((empty screenMedia).readText (paragraphRule faulty)).counts.syntaxFaults = 1 ∧
      (empty screenMedia).add sheet (paragraphRule faulty) = empty screenMedia := by
  intro clean faulty sheet store
  have one := add_paragraphRule screenMedia sheet
    (show ∀ token ∈ tokensOf clean, token.kind ≠ .openBrace ∧ token.kind ≠ .closeBrace by
      decide +kernel) (by decide +kernel)
  have other := add_paragraphRule screenMedia sheet
    (show ∀ token ∈ tokensOf faulty, token.kind ≠ .openBrace ∧ token.kind ≠ .closeBrace by
      decide +kernel) (by decide +kernel)
  have none : (InlineStyle.read clean).faults = 0 := by decide +kernel
  have single : (InlineStyle.read faulty).faults = 1 := by decide +kernel
  obtain ⟨-, -, rules, entries, -⟩ := one.1 none
  obtain ⟨counted, unchanged⟩ := other.2 (by rw [single]; exact Nat.one_pos)
  exact ⟨⟨none, rules, entries, by decide +kernel⟩, single, counted, unchanged⟩

end Store

end StyleCascade
