import Mathlib.Data.List.Infix
import StyleCascade.Proofs.Sheet.Frame
import StyleCascade.Proofs.Sheet.Store

namespace StyleCascade

/-- A source that closes every block it opens, and no other, and ends with the brace of a block.
It does not set a character set. -/
structure ClosedSource (source : List UInt8) : Prop where
  noCharset : ∀ token ∈ tokensOf source, token.kind ≠ .atCharset
  ends : Token.EndAt source.length (tokensOf source)
  levels : ∀ front, front <+: tokensOf source → 0 ≤ Token.level front
  balanced : Token.level (tokensOf source) = 0

instance (source : List UInt8) : Decidable (ClosedSource source) :=
  decidable_of_iff
    ((∀ token ∈ tokensOf source, token.kind ≠ .atCharset) ∧
      Token.EndAt source.length (tokensOf source) ∧
      (∀ front ∈ (tokensOf source).inits, 0 ≤ Token.level front) ∧
      Token.level (tokensOf source) = 0)
    ⟨fun ⟨noCharset, ends, levels, balanced⟩ =>
      ⟨noCharset, ends, fun front before => levels front ((List.mem_inits _ _).mpr before),
        balanced⟩,
    fun all => ⟨all.noCharset, all.ends,
      fun front before => all.levels front ((List.mem_inits _ _).mp before), all.balanced⟩⟩

namespace Statement

/-- A statement without the place of its fault, and without what was read in front of the fault. -/
def bare : Statement → Statement
  | .fault _ _ cause => .fault [] 0 cause
  | other => other

theorem Alike.bare_eq {one other : Statement} (alike : Alike Eq one other) :
    other.bare = one.bare := by
  have same {declared moved : List Declaration}
      (declarations : List.Forall₂ (Declaration.Alike Eq) declared moved) : declared = moved := by
    rw [← List.forall₂_eq_eq_eq]
    exact declarations.imp fun _ _ like => like.eq
  cases alike with
  | ruleset declarations => rw [same declarations]
  | link => rfl
  | skippedMedia => rfl
  | fault => rfl

/-- Statements that differ in their values' places only are the same rules. -/
theorem map_bare_of_alike {statements moved : List Statement}
    (alike : List.Forall₂ (Alike Eq) statements moved) :
    moved.map bare = statements.map bare := by
  induction alike with
  | nil => rfl
  | cons first _ ih => rw [List.map_cons, List.map_cons, first.bare_eq, ih]

end Statement

namespace SheetText

/-- A sheet without the places of its faults. -/
def bare (text : SheetText) : SheetText :=
  ⟨text.statements.map Statement.bare, text.invalid⟩

/-- Two sheets in a row. -/
def append (first second : SheetText) : SheetText :=
  ⟨first.statements ++ second.statements, first.invalid + second.invalid⟩

end SheetText

namespace ClosedSource

variable {source : List UInt8}

theorem closed (all : ClosedSource source) : Token.Closed 0 (tokensOf source) := by
  obtain ⟨last, found, brace, -⟩ := all.ends
  refine Token.closed_of_level all.noCharset ?_ ?_ ?_
  · intro token same
    rw [found] at same
    cases same
    exact brace
  · intro front before
    have above := all.levels front before
    omega
  · have even := all.balanced
    omega

/-- The statements of two sources in a row, up to the places of faults. -/
theorem readAll_append (all : ClosedSource source) (media : List String) (later : List UInt8) :
    (Statement.readAll (source ++ later) media (tokensOf (source ++ later))).map Statement.bare =
      (Statement.readAll source media (tokensOf source)).map Statement.bare ++
        (Statement.readAll later media (tokensOf later)).map Statement.bare := by
  -- the first source with the second behind it, and the second with the first in front of it
  let tail := (tokensOf later).map (Token.shift source.length)
  have inside := fun (source : List UInt8) (token : Token) (mem : token ∈ tokensOf source) =>
    stop_le_of_mem_tokensOf mem
  obtain ⟨first, readFirst, likeFirst⟩ :=
    Frame.Ended.readAll media (Frame.texts_within [] later (inside source))
      (⟨List.suffix_refl _, Or.inr all.closed⟩ :
        (Frame.within [] (tokensOf source) tail).Ended 0 (tokensOf source))
  obtain ⟨second, readSecond, likeSecond⟩ :=
    Frame.Ended.readAll media (Frame.texts_within source [] (inside later))
      (⟨List.suffix_refl _, Or.inl rfl⟩ :
        (Frame.within source (tokensOf later) []).Ended 0 (tokensOf later))
  have still : Token.shift 0 = id := funext fun token => by simp [Token.shift]
  have none : Statement.readAll (source ++ later) media [] = [] := Statement.readAll_of_end rfl
  simp only [Frame.extend, Frame.within, List.nil_append, List.append_nil, List.length_nil,
    still, List.map_id, none] at readFirst readSecond
  rw [tokensOf_append all.ends, readFirst, readSecond, List.map_append,
    Statement.map_bare_of_alike likeFirst, Statement.map_bare_of_alike likeSecond]

/-- Two sources in a row are read as the two sheets in a row, up to the places of faults. -/
theorem read_append (all : ClosedSource source) (media : List String) (later : List UInt8) :
    (SheetText.read media (source ++ later)).bare =
      ((SheetText.read media source).append (SheetText.read media later)).bare := by
  have statements := all.readAll_append media later
  have invalid : Lexeme.invalidCount (Lexeme.read (source ++ later)) =
      Lexeme.invalidCount (Lexeme.read source) + Lexeme.invalidCount (Lexeme.read later) := by
    rw [Lexeme.read_append all.ends, Lexeme.invalidCount_append, Lexeme.invalidCount_shift]
  rw [← List.map_append] at statements
  exact congrArg₂ SheetText.mk statements invalid

end ClosedSource

namespace Statement

theorem ruleCount_bare (statement : Statement) :
    statement.bare.ruleCount = statement.ruleCount := by
  cases statement <;> rfl

theorem isFault_bare (statement : Statement) : statement.bare.isFault = statement.isFault := by
  cases statement <;> rfl

theorem link?_bare (statement : Statement) : statement.bare.link? = statement.link? := by
  cases statement <;> rfl

end Statement

/-- Adds up counts. -/
def SheetCounts.add (one other : SheetCounts) : SheetCounts :=
  { rules := one.rules + other.rules
    syntaxFaults := one.syntaxFaults + other.syntaxFaults
    invalid := one.invalid + other.invalid
    links := one.links + other.links }

namespace SheetText

/-- The places of faults do not count. -/
theorem counts_bare (text : SheetText) : text.bare.counts = text.counts := by
  simp only [bare, counts, List.foldl_map, List.countP_map, List.filterMap_map,
    Function.comp_def, Statement.ruleCount_bare, Statement.isFault_bare, Statement.link?_bare]

/-- The count of a sheet is a sum over its statements. -/
theorem foldl_ruleCount (statements : List Statement) (total : Nat) :
    statements.foldl (fun total statement => total + statement.ruleCount) total =
      total + statements.foldl (fun total statement => total + statement.ruleCount) 0 := by
  induction statements generalizing total with
  | nil => rfl
  | cons first rest ih =>
    rw [List.foldl_cons, List.foldl_cons, ih, ih (0 + first.ruleCount)]
    omega

theorem counts_append (first second : SheetText) :
    (first.append second).counts = first.counts.add second.counts := by
  simp only [append, counts, SheetCounts.add, List.foldl_append, List.countP_append,
    List.filterMap_append, List.length_append]
  rw [foldl_ruleCount second.statements]

end SheetText

namespace Store

/-- Notes addresses of other sheets. -/
def noteLinks (store : Store) (links : List (SheetId × String)) : Store :=
  { store with links := store.links ++ links }

variable (store : Store) (links : List (SheetId × String))

theorem insert_noteLinks (rule : Rule) :
    (store.noteLinks links).insert rule = (store.insert rule).noteLinks links := by
  unfold insert
  cases rule.selector.subjectTag? <;> rfl

/-- Noting the links of a sheet and adding a rule touch different parts of the store. -/
theorem addRule_noteLinks (priority : Priority) (properties : PropertySet) (block : Nat)
    (selector : Selector × Specificity) :
    (store.noteLinks links).addRule priority properties block selector =
      (store.addRule priority properties block selector).noteLinks links := by
  simp only [addRule]
  rw [insert_noteLinks]
  rfl

theorem notePriority_noteLinks (priority : Priority) :
    (store.noteLinks links).notePriority priority =
      (store.notePriority priority).noteLinks links := by
  have same : (store.noteLinks links).priorities = store.priorities := rfl
  unfold notePriority
  rw [same]
  by_cases known : store.priorities.contains priority
  · rw [if_pos known, if_pos known]
  · rw [if_neg known, if_neg known]
    rfl

/-- So does adding a whole block. -/
theorem addBlock_noteLinks (priority : Priority) (properties : PropertySet)
    (selectors : List (Selector × Specificity)) :
    (store.noteLinks links).addBlock priority properties selectors =
      (store.addBlock priority properties selectors).noteLinks links := by
  unfold addBlock
  by_cases none : properties.isEmpty
  · rw [if_pos none, if_pos none]
  · rw [if_neg none, if_neg none, notePriority_noteLinks]
    refine List.foldl_hom (fun other : Store => other.noteLinks links) ?_
    intro other selector
    exact addRule_noteLinks other links priority properties _ selector

theorem addStatement_noteLinks (sheet : SheetId) (statement : Statement) :
    addStatement sheet (store.noteLinks links) statement =
      (addStatement sheet store statement).noteLinks links := by
  cases statement with
  | ruleset selectors declarations =>
    simp only [addStatement, addRuleset, addBlock_noteLinks]
  | link url => rfl
  | skippedMedia media => rfl
  | fault declarations offset cause => rfl

/-- By induction over the statements, noting the links commutes with adding them all. -/
theorem foldl_noteLinks (sheet : SheetId) (statements : List Statement) :
    statements.foldl (addStatement sheet) (store.noteLinks links) =
      (statements.foldl (addStatement sheet) store).noteLinks links := by
  refine List.foldl_hom (fun other : Store => other.noteLinks links) ?_
  intro other statement
  exact addStatement_noteLinks other links sheet statement

/-- Sheets in a row are added one after the other. -/
theorem addText_append (sheet : SheetId) (first second : SheetText) :
    store.addText sheet (first.append second) =
      (store.addText sheet first).addText sheet second := by
  let linksOf (text : SheetText) :=
    (text.statements.filterMap Statement.link?).map (fun url => (sheet, url))
  have both : linksOf (first.append second) = linksOf first ++ linksOf second := by
    simp only [linksOf, SheetText.append, List.filterMap_append, List.map_append]
  have noted : store.noteLinks (linksOf first ++ linksOf second) =
      (store.noteLinks (linksOf first)).noteLinks (linksOf second) := by
    simp only [noteLinks, List.append_assoc]
  show (first.statements ++ second.statements).foldl (addStatement sheet)
      (store.noteLinks (linksOf (first.append second))) = _
  rw [both, noted, List.foldl_append, foldl_noteLinks]
  rfl

theorem media_addBlock (priority : Priority) (properties : PropertySet)
    (selectors : List (Selector × Specificity)) :
    (store.addBlock priority properties selectors).media = store.media := by
  have noted : (store.notePriority priority).media = store.media := by
    unfold notePriority
    split <;> rfl
  have added (block : Nat) (start : Store) :
      (selectors.foldl (fun result selector =>
        result.addRule priority properties block selector) start).media = start.media := by
    induction selectors generalizing start with
    | nil => rfl
    | cons first rest ih => exact (ih _).trans (media_insert start _)
  unfold addBlock
  split
  · rfl
  · exact (added _ _).trans noted

theorem media_addStatement (sheet : SheetId) (statement : Statement) :
    (addStatement sheet store statement).media = store.media := by
  cases statement with
  | ruleset selectors declarations =>
    simp only [addStatement, addRuleset, media_addBlock]
  | link url => rfl
  | skippedMedia media => rfl
  | fault declarations offset cause => rfl

/-- Adding a sheet leaves the media in force. -/
theorem media_add (sheet : SheetId) (source : List UInt8) :
    (store.add sheet source).media = store.media := by
  have added (statements : List Statement) (start : Store) :
      (statements.foldl (addStatement sheet) start).media = start.media := by
    induction statements generalizing start with
    | nil => rfl
    | cons first rest ih => exact (ih _).trans (media_addStatement start sheet first)
  exact added _ _

theorem addStatement_bare (sheet : SheetId) (statement : Statement) :
    addStatement sheet store statement.bare = addStatement sheet store statement := by
  cases statement <;> rfl

/-- The places of faults have no effect. -/
theorem addText_bare (sheet : SheetId) (text : SheetText) :
    store.addText sheet text.bare = store.addText sheet text := by
  simp only [addText, SheetText.bare, List.foldl_map, List.filterMap_map, Function.comp_def,
    Statement.link?_bare, addStatement_bare]

/-- A source that starts with a closed one is added like the closed one and the rest, one after the
other, and its counts are the sums of theirs. Whatever cannot be read in the closed source costs
nothing behind it. -/
theorem add_closed_append {source : List UInt8} (closed : ClosedSource source) (later : List UInt8)
    (sheet : SheetId) :
    store.add sheet (source ++ later) = (store.add sheet source).add sheet later ∧
      (store.readText (source ++ later)).counts =
        (store.readText source).counts.add
          ((store.add sheet source).readText later).counts := by
  have same := closed.read_append store.media later
  have after : (store.add sheet source).readText later = store.readText later := by
    rw [readText, readText, media_add]
  constructor
  · calc store.add sheet (source ++ later)
        = store.addText sheet (store.readText (source ++ later)).bare :=
          (addText_bare store sheet _).symm
      _ = store.addText sheet ((store.readText source).append (store.readText later)) := by
          rw [readText, same, addText_bare]; rfl
      _ = (store.add sheet source).addText sheet (store.readText later) :=
          addText_append store sheet _ _
      _ = (store.add sheet source).add sheet later := by rw [← after]; rfl
  · calc (store.readText (source ++ later)).counts
        = (store.readText (source ++ later)).bare.counts := (SheetText.counts_bare _).symm
      _ = ((store.readText source).append (store.readText later)).counts := by
          rw [readText, same, SheetText.counts_bare]; rfl
      _ = (store.readText source).counts.add (store.readText later).counts :=
          SheetText.counts_append _ _
      _ = _ := by rw [after]

/-- The source before the last rule holds a rule that cannot be read; the two others stay. -/
theorem add_closed_append_malformed_rule :
    let source := Ascii.bytes "h1 \x7b color: red \x7d\nh2 \x7b color: ; ]\n\x7d"
    let later := Ascii.bytes "\nh3 \x7b color: blue \x7d"
    let sheet : SheetId := ⟨.author, 1⟩
    let store := Store.empty Store.screenMedia
    ClosedSource source ∧
      (store.add sheet (source ++ later) = (store.add sheet source).add sheet later ∧
        (store.readText (source ++ later)).counts =
          (store.readText source).counts.add
            ((store.add sheet source).readText later).counts) ∧
      (store.readText (source ++ later)).counts = ⟨2, 1, 0, 0⟩ := by
  intro source later sheet store
  have closed : ClosedSource source := by decide +kernel
  exact ⟨closed, add_closed_append store closed later sheet, by decide +kernel⟩

end Store

end StyleCascade
