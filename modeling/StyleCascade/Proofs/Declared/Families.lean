import StyleCascade.Font
import StyleCascade.Proofs.Declared.Quoted
import StyleCascade.Proofs.Text.Pieces

namespace StyleCascade

open Component (Quote quoted split)

/-- A word of a family name: ASCII letters, digits and hyphens, with a letter in front. -/
structure FamilyWord where
  text : String
  letter : ∃ c ∈ text.toList.head?, c.isAlpha = true
  chars : ∀ c ∈ text.toList, c.isAlphanum = true ∨ c = '-'

/-- A family as it is written. A bare word is not the word `inherit`, in any letter case. -/
inductive Family
  | bare (word : FamilyWord) (free : Ascii.sameLetters word.text "inherit" = false)
  | quoted (quote : Quote) (first : FamilyWord) (more : List FamilyWord)

namespace FamilyWord

/-- A given text as a word, its characters tried one by one. -/
def ofText (text : String) (letter : text.toList.head?.any Char.isAlpha = true)
    (chars : text.toList.all (fun c => c.isAlphanum || c == '-') = true) : FamilyWord where
  text := text
  letter := (Option.any_eq_true _ _).mp letter
  chars := fun c mem => by simpa using List.all_eq_true.mp chars c mem

theorem plain (word : FamilyWord) : Text.IsPlain word.text := by
  constructor
  · obtain ⟨c, head, -⟩ := word.letter
    exact List.ne_nil_of_mem (List.mem_of_mem_head? head)
  · intro c mem
    simpa [Text.isPlainChar, or_assoc] using (word.chars c mem).imp_right Or.inl

theorem isRun (word : FamilyWord) : Text.IsRun word.text :=
  ⟨word.plain.1, fun c mem => Text.not_isBlank_of_isPlainChar (word.plain.2 c mem)⟩

/-- The word without capitals. -/
def lower (word : FamilyWord) : FamilyWord where
  text := Ascii.lower word.text
  letter := by
    obtain ⟨c, head, letter⟩ := word.letter
    refine ⟨c.toLower, ?_, ?_⟩
    · rw [Ascii.toList_lower, List.head?_map, Option.mem_def.mp head]
      rfl
    · exact Text.of_toLower (motive := fun form c => c.isAlpha = true → form.isAlpha = true)
        (by decide) (fun _ => id) letter
  chars := by
    rw [Ascii.toList_lower]
    refine List.forall_mem_map.mpr fun c mem => ?_
    exact Text.of_toLower
      (motive := fun form c => c.isAlphanum = true ∨ c = '-' → form.isAlphanum = true ∨ form = '-')
      (by decide) (fun _ => id) (word.chars c mem)

/-- Words with single spaces between them. -/
def join (first : FamilyWord) (more : List FamilyWord) : String :=
  " ".intercalate ((first :: more).map text)

section Join

variable (first : FamilyWord) (more : List FamilyWord)

theorem join_nil : join first [] = first.text :=
  String.intercalate_singleton

theorem words_join : Text.words (join first more) = (first :: more).map text :=
  Text.words_join (List.forall_mem_map.mpr fun word _ => word.isRun)

theorem mem_join {c : Char} (mem : c ∈ (join first more).toList) :
    Text.isPlainChar c = true ∨ c = ' ' := by
  obtain space | ⟨piece, listed, inside⟩ := Text.mem_intercalate mem
  · exact Or.inr (List.mem_singleton.mp space)
  · obtain ⟨word, -, rfl⟩ := List.mem_map.mp listed
    exact Or.inl (word.plain.2 c inside)

theorem not_mem_join {c : Char} (other : Text.isPlainChar c = false) (noSpace : c ≠ ' ') :
    c ∉ (join first more).toList := by
  intro mem
  obtain plain | space := mem_join first more mem
  · rw [plain] at other
    cases other
  · exact noSpace space

theorem kept_join {drop : Char → Bool}
    (kept : ∀ c, Text.isPlainChar c = true → drop c = false) : Text.Kept drop (join first more) :=
  Text.Kept.join " " (List.cons_ne_nil _ _)
    (List.forall_mem_map.mpr fun word _ => .of_plain word.plain kept)

end Join

end FamilyWord

namespace Family

/-- The name, without quotes. -/
def name : Family → String
  | .bare word _ => word.text
  | .quoted _ first more => first.join more

/-- The name as it is written. -/
def source : Family → String
  | .bare word _ => word.text
  | .quoted quote first more => Component.quoted quote (first.join more).toList

end Family

theorem Component.Quote.isQuote (quote : Quote) : Font.isQuote quote.char = true := by
  cases quote <;> rfl

namespace Font

theorem not_isQuote_of_isPlainChar (c : Char) (plain : Text.isPlainChar c = true) :
    isQuote c = false :=
  Text.of_isPlainChar (motive := fun c => isQuote c = false) (by decide) plain

/-- An entry that is words without quotes is the family of these words. -/
theorem family?_of_words {entry : String} {first : FamilyWord} {more : List FamilyWord}
    (bare : Text.strip isQuote (Text.trim entry).toList = (first.join more).toList) :
    family? entry = some (first.join more) := by
  have words : Text.words (first.join more) = first.text :: more.map FamilyWord.text :=
    first.words_join more
  have joined : " ".intercalate (first.text :: more.map FamilyWord.text) = first.join more := rfl
  simp only [family?, bare, String.ofList_toList, words, joined]

/-- White space in front of an entry is dropped. -/
theorem family?_space (entry : String) : family? (" " ++ entry) = family? entry := by
  have space : " ".toList = [' '] := rfl
  have trimmed : Text.trim (" " ++ entry) = Text.trim entry := by
    rw [Text.trim, Text.strip, String.toList_append, space, List.singleton_append,
      List.dropWhile_cons_of_pos (by rfl)]
    rfl
  rw [family?, trimmed, ← family?]

theorem family?_join (first : FamilyWord) (more : List FamilyWord) :
    family? (first.join more) = some (first.join more) := by
  have ink := first.kept_join more fun _ => Text.not_isBlank_of_isPlainChar
  have bare := first.kept_join more not_isQuote_of_isPlainChar
  refine family?_of_words ?_
  rw [ink.trim_eq, Text.strip_of_kept bare.front bare.back]

theorem family?_source (family : Family) : family? family.source = some family.name := by
  cases family with
  | bare word _ =>
    have alone := family?_join word []
    rwa [FamilyWord.join_nil] at alone
  | quoted quote first more =>
    have bare := first.kept_join more not_isQuote_of_isPlainChar
    rw [Family.source, Family.name]
    refine family?_of_words ?_
    rw [(Component.kept_quoted quote _).trim_eq, Component.toList_quoted,
      Text.strip_enclosed quote.isQuote bare.front bare.back]

theorem comma_not_mem_source (family : Family) : ',' ∉ family.source.toList := by
  cases family with
  | bare word _ => exact word.plain.not_mem (by decide)
  | quoted quote first more =>
    have inside : ',' ∉ (first.join more).toList := first.not_mem_join more (by decide) (by decide)
    rw [Family.source, Component.toList_quoted]
    cases quote <;> simp [Component.Quote.char, inside]

theorem mapM_family?_source (families : List Family) :
    (families.map Family.source).mapM family? = some (families.map Family.name) := by
  induction families with
  | nil => rfl
  | cons family rest ih =>
    rw [List.map_cons, List.mapM_cons, family?_source, ih]
    rfl

/-- A list of families is brought to the list of their names. -/
theorem familyList?_source {families : List Family} (filled : families ≠ []) :
    familyList? (", ".intercalate (families.map Family.source)) =
      some (", ".intercalate (families.map Family.name)) := by
  obtain ⟨first, rest, rfl⟩ := List.exists_cons_of_ne_nil filled
  have plain : ∀ entry ∈ (first :: rest).map Family.source, ',' ∉ entry.toList := by
    intro entry listed
    obtain ⟨family, -, rfl⟩ := List.mem_map.mp listed
    exact comma_not_mem_source family
  have spaced : family? ∘ (" " ++ ·) = family? := by
    funext entry
    rw [Function.comp_apply, family?_space]
  have entries : (first.source :: (rest.map Family.source).map (" " ++ ·)).mapM family? =
      ((first :: rest).map Family.source).mapM family? := by
    rw [List.map_cons, List.mapM_cons, List.mapM_cons, List.mapM_map, spaced]
  rw [familyList?, List.map_cons, Text.commaPieces_join plain, entries, mapM_family?_source,
    Option.map_some]

/-- Words with spaces between them are one family. -/
theorem familyList?_join (first : FamilyWord) (more : List FamilyWord) :
    familyList? (first.join more) = some (first.join more) := by
  have plain : ',' ∉ (first.join more).toList := first.not_mem_join more (by decide) (by decide)
  rw [familyList?, Text.commaPieces_plain plain, List.mapM_cons, family?_join]
  simp

end Font

namespace FamilyWord

variable (word first : FamilyWord) (more : List FamilyWord)

theorem isWord : Component.IsWord word.text :=
  ⟨word.plain.1, fun c mem =>
    Text.of_isPlainChar (motive := fun c => Component.isInner c = true) (by decide)
      (word.plain.2 c mem)⟩

/-- No numeral begins with a letter. -/
theorem numeric?_eq_none : Component.numeric? word.text = none := by
  obtain ⟨c, head, letter⟩ := word.letter
  obtain ⟨rest, shape⟩ := List.head?_eq_some_iff.mp (Option.mem_def.mp head)
  have plain := word.plain.2 c (List.mem_of_mem_head? head)
  obtain ⟨noDigit, noPlus, noMinus, noPoint⟩ :
      c.isDigit = false ∧ c ≠ '+' ∧ c ≠ '-' ∧ c ≠ '.' :=
    Text.of_isPlainChar (motive := fun c => c.isAlpha = true →
      c.isDigit = false ∧ c ≠ '+' ∧ c ≠ '-' ∧ c ≠ '.') (by decide) plain letter
  have unread : Numeral.read? word.text.toList = none := by
    rw [shape]
    simp [Numeral.read?, Numeral.splitSign, noDigit, noPlus, noMinus, noPoint]
  rw [Component.numeric?, unread]

/-- A word alone is read as a word, without its capitals. -/
theorem ofText_text : Value.ofText word.text = .ident (Ascii.lower word.text) := by
  have noHash : word.text.toList.head? ≠ some '#' := by
    intro head
    exact absurd (word.plain.2 '#' (List.mem_of_mem_head? head)) (by decide)
  have chars : word.text.toList.all Ascii.isNameChar = true :=
    List.all_eq_true.mpr fun c mem =>
      Text.of_isPlainChar (motive := fun c => Ascii.isNameChar c = true) (by decide)
        (word.plain.2 c mem)
  have noEscape : '\\' ∉ word.text.toList := word.plain.not_mem (by decide)
  rw [Value.ofText_of_trimmed word.plain.trim_eq, if_pos word.isWord.split_eq,
    Component.classify_of_inner word.isWord.inner noHash, Component.ofPlain,
    word.numeric?_eq_none, Component.unescapeText_of_plain noEscape, word.plain.lowercase_eq]
  simp only [chars, word.plain.1, ne_eq, not_false_eq_true, decide_true, Bool.and_self, if_true]

/-- No quote and no backslash is bare in words. -/
theorem bare_join (quote : Quote) :
    quote.char ∉ Component.bare (first.join more).toList ∧
      '\\' ∉ Component.bare (first.join more).toList := by
  have noEscape : '\\' ∉ (first.join more).toList :=
    first.not_mem_join more (by decide) (by decide)
  rw [Component.bare_of_plain noEscape]
  refine ⟨?_, noEscape⟩
  cases quote <;> exact first.not_mem_join more (by decide) (by decide)

/-- Words in quotes alone are read as a string. -/
theorem ofText_quoted (quote : Quote) :
    Value.ofText (quoted quote (first.join more).toList) = .str (first.join more) :=
  (Value.ofText_quoted_eq_str_iff _ _ _).mpr
    ⟨Component.split_quoted (first.bare_join more quote),
      (Component.unquote?_plain_iff quote _).mpr (first.not_mem_join more (by decide) (by decide))⟩

end FamilyWord

namespace Family

variable (family : Family)

theorem kept_source : Text.Kept Text.isBlank family.source := by
  cases family with
  | bare word _ => exact .of_plain word.plain fun _ => Text.not_isBlank_of_isPlainChar
  | quoted quote first more => exact Component.kept_quoted quote _

/-- A family is not cut before its end. -/
theorem splitFrom_source (rest : List Char) :
    Component.splitFrom [] 0 none (family.source.toList ++ rest) =
      Component.splitFrom family.source.toList.reverse 0 none rest := by
  cases family with
  | bare word _ =>
    have read := Component.splitFrom_inner word.isWord.inner [] 0 rest
    rwa [List.append_nil] at read
  | quoted quote first more =>
    exact Component.splitFrom_closed (first.bare_join more quote) 0 rest

/-- The comma behind a family is a component of its own. -/
theorem split_source (rest : String) :
    split (family.source ++ "," ++ rest) = family.source :: "," :: split rest := by
  have comma : ",".toList = [','] := rfl
  have whole : Component.finish family.source.toList.reverse = [family.source.toList] := by
    rw [Component.finish_of_ne_nil (List.reverse_eq_nil_iff.not.mpr family.kept_source.filled),
      List.reverse_reverse]
  have cut : Component.splitFrom family.source.toList.reverse 0 none (',' :: rest.toList) =
      Component.finish family.source.toList.reverse ++
        [','] :: Component.splitFrom [] 0 none rest.toList := rfl
  rw [split, String.toList_append, String.toList_append, comma, List.append_assoc,
    splitFrom_source, List.singleton_append, cut, whole, List.singleton_append, List.map_cons,
    List.map_cons, String.ofList_toList]
  rfl

/-- Several families are kept as they are written. -/
theorem ofText_several (first second : Family) (rest : List Family) :
    let text := ", ".intercalate ((first :: second :: rest).map source)
    Value.ofText text = .raw text := by
  intro text
  have kept : Text.Kept Text.isBlank text :=
    .join ", " (List.cons_ne_nil _ _) (List.forall_mem_map.mpr fun family _ => family.kept_source)
  have gap : ", " = "," ++ " " := rfl
  have written : text =
      first.source ++ "," ++ (" " ++ ", ".intercalate ((second :: rest).map source)) := by
    simp only [text, List.map_cons, String.intercalate_cons_cons]
    rw [gap]
    simp only [String.append_assoc]
  rw [Value.ofText_of_trimmed kept.trim_eq, if_neg]
  rw [written, split_source]
  intro alone
  cases (List.cons.inj alone).2

end Family

end StyleCascade
