import StyleCascade.Text.CaseTable

namespace StyleCascade

namespace Text

/-- A code point lies in one of the ranges. -/
def inRanges (ranges : List (Nat × Nat)) (point : Nat) : Bool :=
  ranges.any (fun range => range.1 ≤ point && point ≤ range.2)

/-- The lowercase form of a character when it is a single character. -/
def lowerChar (c : Char) : Char :=
  if c.toNat < 128 then c.toLower
  else
    match caseRuns.find? (fun run =>
        run.first ≤ c.toNat && c.toNat ≤ run.last && (c.toNat - run.first) % run.step = 0) with
    | some run => Char.ofNat (c.toNat + run.offset).toNat
    | none => c

/-- The nearest character that is not ignorable is a letter. -/
def meetsLetter (chars : List Char) : Bool :=
  (chars.dropWhile (fun c => inRanges caseIgnorableRanges c.toNat)).head?.any
    (fun c => inRanges casedRanges c.toNat)

/-- A sigma between `before`, nearest first, and `after` ends its word. -/
def endsWord (before after : List Char) : Bool :=
  meetsLetter before && !meetsLetter after

/-- The lowercase form of `c` between the characters `before`, nearest first, and `after`. -/
def lowerForm (before : List Char) (c : Char) (after : List Char) : List Char :=
  if c = 'Σ' then [if endsWord before after then 'ς' else 'σ']
  else if c = 'İ' then ['i', '\u0307']
  else [lowerChar c]

/-- Lowercases the characters behind `before`, which is kept nearest first. -/
def lowerFrom (before : List Char) : List Char → List Char
  | [] => []
  | c :: after => lowerForm before c after ++ lowerFrom (c :: before) after

/-- The lowercase form of a text. Every character has a form of its own, save that a capital sigma
at the end of a word becomes the final small sigma. -/
def lowercase (text : String) : String :=
  String.ofList (lowerFrom [] text.toList)

/-- ASCII text is lowercased letter by letter. -/
theorem lowerFrom_ascii {before chars : List Char} (ascii : ∀ c ∈ chars, c.toNat < 128) :
    lowerFrom before chars = chars.map Char.toLower := by
  induction chars generalizing before with
  | nil => rfl
  | cons c rest ih =>
    have small : c.toNat < 128 := ascii c List.mem_cons_self
    have notSigma : c ≠ 'Σ' := fun same => absurd (same ▸ small) (by decide)
    have notDotted : c ≠ 'İ' := fun same => absurd (same ▸ small) (by decide)
    rw [lowerFrom, ih (fun d member => ascii d (List.mem_cons_of_mem c member))]
    simp only [lowerForm, notSigma, notDotted, if_false, lowerChar, small, if_true, List.map_cons,
      List.singleton_append]

end Text

end StyleCascade
