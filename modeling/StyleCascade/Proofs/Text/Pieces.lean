import StyleCascade.Proofs.Text.Plain

namespace StyleCascade

namespace Text

/-- A text that neither begins nor ends with a character of a class. -/
structure Kept (drop : Char → Bool) (text : String) : Prop where
  filled : text.toList ≠ []
  front : ∀ c ∈ text.toList.head?, drop c = false
  back : ∀ c ∈ text.toList.getLast?, drop c = false

section Joined

variable {drop : Char → Bool} {text one other : String}

theorem Kept.of_plain (plain : IsPlain text) (kept : ∀ c, isPlainChar c = true → drop c = false) :
    Kept drop text where
  filled := plain.1
  front c head := kept c (plain.2 c (List.mem_of_mem_head? head))
  back c last := kept c (plain.2 c (List.mem_of_mem_getLast? last))

theorem Kept.append (first : Kept drop one) (between : String) (second : Kept drop other) :
    Kept drop (one ++ between ++ other) where
  filled := by
    rw [String.toList_append, String.toList_append]
    exact List.append_ne_nil_of_right_ne_nil _ second.filled
  front := by
    obtain ⟨c, rest, shape⟩ := List.exists_cons_of_ne_nil first.filled
    have front := first.front
    rw [shape] at front
    rw [String.toList_append, String.toList_append, shape]
    exact front
  back := by
    have back := second.back
    rw [String.toList_append, List.getLast?_append]
    rw [List.getLast?_eq_some_getLast second.filled] at back ⊢
    exact back

theorem Kept.join (between : String) {pieces : List String} (filled : pieces ≠ [])
    (kept : ∀ piece ∈ pieces, Kept drop piece) : Kept drop (between.intercalate pieces) := by
  induction pieces with
  | nil => exact absurd rfl filled
  | cons first rest ih =>
    obtain ⟨head, others⟩ := List.forall_mem_cons.mp kept
    cases rest with
    | nil => rwa [String.intercalate_singleton]
    | cons second rest =>
      rw [String.intercalate_cons_cons]
      exact head.append between (ih (List.cons_ne_nil _ _) others)

theorem Kept.trim_eq (kept : Kept isBlank text) : trim text = text :=
  trim_of_ink kept.front kept.back

theorem mem_intercalate {between : String} {pieces : List String} {c : Char}
    (mem : c ∈ (between.intercalate pieces).toList) :
    c ∈ between.toList ∨ ∃ piece ∈ pieces, c ∈ piece.toList := by
  induction pieces with
  | nil => simp at mem
  | cons first rest ih =>
    cases rest with
    | nil =>
      rw [String.intercalate_singleton] at mem
      exact Or.inr ⟨first, List.mem_cons_self, mem⟩
    | cons second rest =>
      rw [String.intercalate_cons_cons, String.toList_append, String.toList_append, List.mem_append,
        List.mem_append] at mem
      obtain (inside | gap) | behind := mem
      · exact Or.inr ⟨first, List.mem_cons_self, inside⟩
      · exact Or.inl gap
      · obtain gap | ⟨piece, listed, inside⟩ := ih behind
        · exact Or.inl gap
        · exact Or.inr ⟨piece, List.mem_cons_of_mem _ listed, inside⟩

end Joined

section Words

variable {separator : Char → Bool} {chars : List Char}

theorem runsFrom_run (outside : ∀ c ∈ chars, separator c = false) (run rest : List Char) :
    runsFrom separator run (chars ++ rest) = runsFrom separator (chars.reverse ++ run) rest := by
  induction chars generalizing run with
  | nil => rfl
  | cons c more ih =>
    obtain ⟨first, others⟩ := List.forall_mem_cons.mp outside
    rw [List.cons_append, runsFrom, first, if_neg Bool.false_ne_true, ih others, List.reverse_cons,
      List.append_assoc, List.singleton_append]

/-- A text without blanks. -/
def IsRun (word : String) : Prop :=
  word.toList ≠ [] ∧ ∀ c ∈ word.toList, isBlank c = false

theorem words_append {word : String} (run : IsRun word) (rest : String) :
    words (word ++ " " ++ rest) = word :: words rest := by
  have space : " ".toList = [' '] := rfl
  have some : (word.toList.reverse ++ []).isEmpty = false := by
    simpa using run.1
  rw [words, runs, String.toList_append, String.toList_append, space, List.append_assoc,
    runsFrom_run run.2, List.singleton_append, runsFrom, if_pos (by rfl), some,
    if_neg Bool.false_ne_true, List.map_cons, List.append_nil, List.reverse_reverse,
    String.ofList_toList]
  rfl

theorem words_run {word : String} (run : IsRun word) : words word = [word] := by
  have whole := runsFrom_run run.2 [] []
  have some : (word.toList.reverse ++ []).isEmpty = false := by
    simpa using run.1
  rw [List.append_nil] at whole
  rw [words, runs, whole, runsFrom, some, if_neg Bool.false_ne_true, List.append_nil,
    List.reverse_reverse, List.map_singleton, String.ofList_toList]

/-- Words with single spaces between them are the words of the text. -/
theorem words_join {list : List String} (runs : ∀ word ∈ list, IsRun word) :
    words (" ".intercalate list) = list := by
  induction list with
  | nil => rfl
  | cons first rest ih =>
    obtain ⟨head, others⟩ := List.forall_mem_cons.mp runs
    cases rest with
    | nil => rw [String.intercalate_singleton, words_run head]
    | cons second rest =>
      rw [String.intercalate_cons_cons, words_append head, ih others]

end Words

section Commas

variable {piece : String}

theorem apart_of_plain (plain : ',' ∉ piece.toList) :
    ∀ c ∈ piece.toList, decide (c = ',') = false := by
  intro c mem
  refine decide_eq_false ?_
  rintro rfl
  exact plain mem

theorem commaPieces_plain (plain : ',' ∉ piece.toList) : commaPieces piece = [piece] := by
  rw [commaPieces, List.splitOnP_eq_singleton (apart_of_plain plain), List.map_singleton,
    String.ofList_toList]

theorem commaPieces_append (plain : ',' ∉ piece.toList) (rest : String) :
    commaPieces (piece ++ "," ++ rest) = piece :: commaPieces rest := by
  have comma : ",".toList = [','] := rfl
  rw [commaPieces, String.toList_append, String.toList_append, comma, List.append_assoc,
    List.singleton_append, List.splitOnP_append_cons _ _ (by rfl),
    List.splitOnP_eq_singleton (apart_of_plain plain), List.singleton_append, List.map_cons,
    String.ofList_toList]
  rfl

/-- The entries of a list, each with the space in front that stands behind a comma. -/
theorem commaPieces_join {first : String} {rest : List String}
    (plain : ∀ entry ∈ first :: rest, ',' ∉ entry.toList) :
    commaPieces (", ".intercalate (first :: rest)) = first :: rest.map (" " ++ ·) := by
  induction rest generalizing first with
  | nil =>
    rw [String.intercalate_singleton, commaPieces_plain (plain first List.mem_cons_self)]
    rfl
  | cons second rest ih =>
    obtain ⟨head, others⟩ := List.forall_mem_cons.mp plain
    obtain ⟨next, behind⟩ := List.forall_mem_cons.mp others
    have spaced : ∀ entry ∈ (" " ++ second) :: rest, ',' ∉ entry.toList := by
      refine List.forall_mem_cons.mpr ⟨?_, behind⟩
      rw [String.toList_append]
      exact List.not_mem_append (by decide) next
    have gap : ", " = "," ++ " " := rfl
    have shape : ", ".intercalate (first :: second :: rest) =
        first ++ "," ++ ", ".intercalate ((" " ++ second) :: rest) := by
      rw [String.intercalate_cons_cons, String.intercalate_cons_append, gap]
      simp only [String.append_assoc]
    rw [shape, commaPieces_append head, ih spaced, List.map_cons]

end Commas

end Text

end StyleCascade
