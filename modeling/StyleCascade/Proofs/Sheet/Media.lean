import StyleCascade.Proofs.Sheet.Append
import StyleCascade.Proofs.Sheet.MediaNames

namespace StyleCascade

/-- A source in a block for the media of a list. -/
def mediaBlock (list body : List UInt8) : List UInt8 :=
  Ascii.bytes "@media " ++ list ++ Ascii.byte '\x7b' :: (body ++ [Ascii.byte '\x7d'])

/-- A source that can stand in a block: an empty one, or a closed one in which neither other sheets
nor media are named. -/
structure BlockSource (body : List UInt8) : Prop where
  closed : body = [] ∨ ClosedSource body
  flat : ∀ token ∈ tokensOf body, token.kind ≠ .atImport ∧ token.kind ≠ .atMedia

/-- White space in front of a list belongs to it. -/
theorem MediaList.cons_space {b : UInt8} {list : List UInt8} {names : List String}
    (listed : MediaList list names) (space : Ascii.isSpaceByte b = true) :
    MediaList (b :: list) names := by
  have wider {gap : List UInt8} (white : White gap) : White (b :: gap) :=
    List.forall_mem_cons.mpr ⟨space, white⟩
  cases listed with
  | none white => exact .none (wider white)
  | last white plain whiteAfter => exact .last (wider white) plain whiteAfter
  | more white plain whiteAfter others => exact .more (wider white) plain whiteAfter others

namespace Statement

/-- Apart from the two rules that only a sheet may hold, a statement is read in a sheet as in a
block. -/
theorem takeOuter_of_plain {source : List UInt8} {token : Token} {rest : List Token}
    (media : List String) (noImport : token.kind ≠ .atImport) (noMedia : token.kind ≠ .atMedia) :
    takeOuter source media token rest = takePlain source token rest := by
  unfold takeOuter
  split
  · next mark => exact absurd mark noImport
  · next mark => exact absurd mark noMedia
  · rfl

/-- The names of media in force are compared without regard to letter case. -/
theorem mediaApply_iff (media names : List String) :
    mediaApply (media.map Ascii.lower) (names.map Ascii.lower) = true ↔
      names = [] ∨ ∃ name ∈ names,
        Ascii.sameLetters name "all" ∨ ∃ own ∈ media, Ascii.sameLetters name own := by
  have all : Ascii.lower "all" = "all" := by decide
  cases names with
  | nil => simp [mediaApply]
  | cons first rest =>
    simp only [mediaApply, Ascii.sameLetters, all, List.isEmpty_map, List.isEmpty_cons,
      Bool.false_or, List.any_map, List.any_eq_true, Function.comp_apply, Bool.or_eq_true,
      decide_eq_true_eq, List.contains_iff_mem, List.mem_map, beq_iff_eq, reduceCtorEq, false_or]
    simp only [eq_comm]

end Statement

namespace Frame

variable {frame : Frame} {near far : List UInt8} {alike : String → String → Prop}
  {tokens after : List Token} {brace : Token} {depth : Nat}

/-- Inside a block, the statements of a source are read as at its outside, up to the closing
brace. -/
theorem Ended.readNested (media : List String) (texts : frame.Texts near far alike)
    (closes : brace.kind = .closeBrace) (tail : frame.tail = brace :: after)
    (flat : ∀ token ∈ frame.tokens, token.kind ≠ .atImport ∧ token.kind ≠ .atMedia)
    (ended : frame.Ended 0 tokens) :
    ∃ moved,
      Statement.readNested far (frame.extend tokens) = (moved, brace :: after) ∧
      List.Forall₂ (Statement.Alike alike) (Statement.readAll near media tokens) moved := by
  have more : frame.tail ≠ [] := by rw [tail]; exact List.cons_ne_nil _ _
  fun_induction Statement.readAll near media tokens with
  | case1 tokens empty =>
    cases tokens with
    | nil =>
      have front : Token.skipSpace (brace :: after) = brace :: after := by
        simp [Token.skipSpace, closes]
      rw [frame.extend_nil, tail, Statement.readNested_of_front front, if_pos closes]
      exact ⟨[], rfl, .nil⟩
    | cons token rest =>
      obtain ⟨-, start⟩ := ended.sealed_cons.skipSpace_nil empty
      exact absurd start.tail_eq_nil more
  | case2 tokens token rest front outcome ih =>
    obtain ⟨spaced, start⟩ := (ended.sealed_of_skipSpace front).skipSpace_cons front
    have noClose : token.kind ≠ .closeBrace :=
      fun close => more (start.tail_eq_nil_of_close close)
    obtain ⟨noImport, noMedia⟩ := flat token (start.inside.subset List.mem_cons_self)
    have same := start.takePlain texts
    rw [← Statement.takeOuter_of_plain media noImport noMedia] at same
    obtain ⟨like, behind, ended⟩ :=
      start.settle near far (fun close => absurd close noClose) same
    rw [Statement.readNested_of_front spaced, frame.kind_move, if_neg noClose]
    rw [extend_cons] at like behind
    obtain ⟨moved, read, likeMore⟩ := ih ended
    simp only [behind]
    refine ⟨_, ?_, List.rel_append like likeMore⟩
    exact congrArg (fun more : List Statement × List Token => (_ ++ more.1, more.2)) read

/-- What closes all its blocks is passed over with the block that it stands in. -/
theorem skipBlock_of_closed (closes : brace.kind = .closeBrace) (tail : frame.tail = brace :: after)
    (closed : Token.Closed depth tokens) :
    Token.skipBlock depth (frame.extend tokens) = after := by
  induction closed with
  | done => rw [frame.extend_nil, tail, Token.skipBlock_close_zero closes]
  | closing close _ ih =>
    rw [extend_cons, Token.skipBlock_close_succ ((frame.kind_move _).trans close), ih]
  | opening opens _ ih =>
    rw [extend_cons, Token.skipBlock_open ((frame.kind_move _).trans opens), ih]
  | other noOpen noClose _ _ _ ih =>
    rw [extend_cons, Token.skipBlock_other (by rwa [frame.kind_move]) (by rwa [frame.kind_move]),
      ih]

end Frame

namespace BlockSource

variable {body : List UInt8}

theorem tokens_closed (block : BlockSource body) : Token.Closed 0 (tokensOf body) := by
  obtain rfl | closed := block.closed
  · rw [tokensOf_nil]
    exact .done
  · exact closed.closed

/-- A block source is read to its end, so the brace behind it is a token of its own. -/
theorem read_brace (block : BlockSource body) :
    Lexeme.read (body ++ [Ascii.byte '\x7d']) =
      Lexeme.read body ++ [.token ⟨.closeBrace, body.length, [Ascii.byte '\x7d']⟩] := by
  have single : Lexeme.read [Ascii.byte '\x7d'] =
      [.token ⟨.closeBrace, 0, [Ascii.byte '\x7d']⟩] := by
    rw [Lexeme.read, Lexeme.readFrom_mark Scan.mark_closeBrace, Lexeme.readFrom_nil]
  obtain rfl | closed := block.closed
  · rw [List.nil_append, single, Lexeme.read, Lexeme.readFrom_nil]
    rfl
  · rw [Lexeme.read_append closed.ends, single]
    rfl

/-- The lexemes of a block for media: those of the source in it, behind a mark, lexemes that give
the names, and an opening brace. -/
theorem read_mediaBlock (block : BlockSource body) {list : List UInt8} {names : List String}
    (listed : MediaList list names) :
    ∃ front named place,
      mediaBlock list body = front ++ body ++ [Ascii.byte '\x7d'] ∧
      Lexeme.invalidCount named = 0 ∧
      (∀ rest, Statement.takeMediaNames (Lexeme.tokens named ++ rest) =
        (Statement.takeMediaNames rest).map
          (fun (more, last) => (names.map Ascii.lower ++ more, last))) ∧
      Lexeme.read (mediaBlock list body) =
        .token ⟨.atMedia, 0, Ascii.bytes "@media"⟩ :: (named ++
          .token ⟨.openBrace, place, [Ascii.byte '\x7b']⟩ ::
            ((Lexeme.read body).map (Lexeme.shift front.length) ++
              [.token ⟨.closeBrace, front.length + body.length, [Ascii.byte '\x7d']⟩])) := by
  let inner := body ++ [Ascii.byte '\x7d']
  let gap := Ascii.byte ' ' :: list
  let front := Ascii.bytes "@media" ++ (gap ++ [Ascii.byte '\x7b'])
  have before : NamesBefore (Ascii.byte '\x7b' :: inner) gap names := by
    refine .list (listed.cons_space (by decide)) ?_ ?_ <;> (rintro _ ⟨⟩; decide)
  obtain ⟨named, readNames, valid, taken⟩ := before 6
  have split : mediaBlock list body = Ascii.bytes "@media" ++ (gap ++ Ascii.byte '\x7b' :: inner) :=
    rfl
  have mark : scan (Ascii.bytes "@media" ++ (gap ++ Ascii.byte '\x7b' :: inner)) =
      .token .atMedia 6 := rfl
  have size : 6 + gap.length + 1 = front.length := by
    simp only [front, List.length_append, List.length_singleton]
    rfl
  have behind : Lexeme.readFrom (6 + gap.length + 1) inner =
      (Lexeme.read body).map (Lexeme.shift front.length) ++
        [.token ⟨.closeBrace, front.length + body.length, [Ascii.byte '\x7d']⟩] := by
    rw [size, Lexeme.readFrom_eq_shift, block.read_brace, List.map_append]
    rfl
  refine ⟨front, named, 6 + gap.length, ?_, valid, taken, ?_⟩
  · simp only [split, front, inner, List.append_assoc, List.cons_append, List.nil_append]
  · calc Lexeme.read (mediaBlock list body)
        = .token ⟨.atMedia, 0, Ascii.bytes "@media"⟩ ::
            Lexeme.readFrom 6 (gap ++ Ascii.byte '\x7b' :: inner) := by
          rw [split, Lexeme.read, Lexeme.readFrom_of_token mark]
          rfl
      _ = _ := by
          rw [readNames, Lexeme.readFrom_mark Scan.mark_openBrace, behind]

end BlockSource

namespace SheetText

variable {body list : List UInt8} {names : List String}

/-- What a block for media comes to: the sheet that the source in it would be, or nothing. -/
theorem read_mediaBlock (block : BlockSource body) (listed : MediaList list names)
    (media : List String) :
    (SheetText.read media (mediaBlock list body)).bare =
      if Statement.mediaApply media (names.map Ascii.lower) then (SheetText.read media body).bare
      else
        ⟨[.skippedMedia (names.map Ascii.lower)], Lexeme.invalidCount (Lexeme.read body)⟩ := by
  obtain ⟨front, named, place, split, valid, taken, read⟩ := block.read_mediaBlock listed
  let mark : Token := ⟨.atMedia, 0, Ascii.bytes "@media"⟩
  let opening : Token := ⟨.openBrace, place, [Ascii.byte '\x7b']⟩
  let brace : Token := ⟨.closeBrace, front.length + body.length, [Ascii.byte '\x7d']⟩
  let frame := Frame.within front (tokensOf body) [brace]
  have tokens : Lexeme.tokens (Lexeme.read (mediaBlock list body)) =
      mark :: (Lexeme.tokens named ++ opening :: frame.extend (tokensOf body)) := by
    rw [read, Lexeme.tokens_token, Lexeme.tokens_append, Lexeme.tokens_token,
      Lexeme.tokens_append, Lexeme.tokens_shift]
    rfl
  have invalid : Lexeme.invalidCount (Lexeme.read (mediaBlock list body)) =
      Lexeme.invalidCount (Lexeme.read body) := by
    rw [read, Lexeme.invalidCount_token, Lexeme.invalidCount_append, valid,
      Lexeme.invalidCount_token, Lexeme.invalidCount_append, Lexeme.invalidCount_shift,
      Lexeme.invalidCount_token, Nat.zero_add]
    rfl
  have stated : Statement.takeMediaNames
      (Lexeme.tokens named ++ opening :: frame.extend (tokensOf body)) =
        .ok (names.map Ascii.lower, frame.extend (tokensOf body)) := by
    rw [taken]
    simp [Statement.takeMediaNames, opening, Except.map]
  have texts : frame.Texts body (mediaBlock list body) Eq := by
    rw [split]
    exact Frame.texts_within front [Ascii.byte '\x7d']
      (fun _ mem => stop_le_of_mem_tokensOf mem)
  have ended : frame.Ended 0 (tokensOf body) :=
    ⟨List.suffix_refl _, Or.inr block.tokens_closed⟩
  obtain ⟨moved, inner, like⟩ := ended.readNested media texts rfl rfl block.flat
  have skipped : Token.skipBlock 0 (frame.extend (tokensOf body)) = [] :=
    Frame.skipBlock_of_closed rfl rfl block.tokens_closed
  have outer : Statement.takeOuter (mediaBlock list body) media mark
      (Lexeme.tokens named ++ opening :: frame.extend (tokensOf body)) =
        if Statement.mediaApply media (names.map Ascii.lower) then .ok (moved, [])
        else .ok ([.skippedMedia (names.map Ascii.lower)], []) := by
    simp only [Statement.takeOuter, mark, Statement.takeMedia, stated, inner, skipped]
    rfl
  have done : Statement.readAll (mediaBlock list body) media [] = [] := Statement.readAll_of_end rfl
  have front : Token.skipSpace
      (mark :: (Lexeme.tokens named ++ opening :: frame.extend (tokensOf body))) =
        mark :: (Lexeme.tokens named ++ opening :: frame.extend (tokensOf body)) := rfl
  have whole : Statement.readAll (mediaBlock list body) media _ = _ :=
    Statement.readAll_of_front front
  rw [outer] at whole
  simp only [SheetText.read, SheetText.bare, tokens, invalid, whole]
  split
  · simp only [Statement.settle, done, List.append_nil, Statement.map_bare_of_alike like]
    rfl
  · simp only [Statement.settle, done, List.append_nil]
    rfl

end SheetText

namespace Store

theorem media_run (store : Store) (ops : List Op) : (store.run ops).media = store.media := by
  induction ops generalizing store with
  | nil => rfl
  | cons op rest ih =>
    have kept : (store.step op).media = store.media := by
      cases op with
      | add sheet source => exact media_add store sheet source
      | remove sheet => rfl
    exact (ih (store.step op)).trans kept

/-- Where no media are named, or all of them, or one in force, a block for media adds what the
source in it adds, and counts the same. Elsewhere it adds nothing, and only bytes that form no token
count. -/
theorem add_mediaBlock (media : List String) (ops : List Op) (sheet : SheetId)
    {body list : List UInt8} {names : List String} (block : BlockSource body)
    (listed : MediaList list names) :
    let store := (empty media).run ops
    let applies := names = [] ∨ ∃ name ∈ names,
      Ascii.sameLetters name "all" ∨ ∃ own ∈ media, Ascii.sameLetters name own
    (applies →
      store.add sheet (mediaBlock list body) = store.add sheet body ∧
        (store.readText (mediaBlock list body)).counts = (store.readText body).counts) ∧
    (¬applies →
      store.add sheet (mediaBlock list body) = store ∧
        (store.readText (mediaBlock list body)).counts =
          ⟨0, 0, (store.readText body).counts.invalid, 0⟩) := by
  intro store applies
  have force : store.media = media.map Ascii.lower := media_run (empty media) ops
  have read := SheetText.read_mediaBlock block listed store.media
  have decides : Statement.mediaApply store.media (names.map Ascii.lower) = true ↔ applies := by
    rw [force]
    exact Statement.mediaApply_iff media names
  constructor
  · intro held
    rw [if_pos (decides.mpr held)] at read
    constructor
    · calc store.add sheet (mediaBlock list body)
          = store.addText sheet (SheetText.read store.media (mediaBlock list body)).bare :=
            (addText_bare store sheet _).symm
        _ = store.add sheet body := by rw [read, addText_bare]; rfl
    · calc (store.readText (mediaBlock list body)).counts
          = (SheetText.read store.media (mediaBlock list body)).bare.counts :=
            (SheetText.counts_bare _).symm
        _ = (store.readText body).counts := by rw [read, SheetText.counts_bare]; rfl
  · intro other
    rw [if_neg (fun held => other (decides.mp held))] at read
    constructor
    · calc store.add sheet (mediaBlock list body)
          = store.addText sheet (SheetText.read store.media (mediaBlock list body)).bare :=
            (addText_bare store sheet _).symm
        _ = store.noteLinks [] := by rw [read]; rfl
        _ = store := by rw [noteLinks, List.append_nil]
    · calc (store.readText (mediaBlock list body)).counts
          = (SheetText.read store.media (mediaBlock list body)).bare.counts :=
            (SheetText.counts_bare _).symm
        _ = _ := by rw [read]; rfl

/-- A block with two rules around one that cannot be read, once for a screen and once for a
printer. -/
theorem add_mediaBlock_malformed_rule :
    let body := Ascii.bytes "h1\x7bcolor:red\x7d p\x7ba\x7b\x7d;b:c\x7d h2\x7bcolor:blue\x7d"
    let sheet : SheetId := ⟨.author, 1⟩
    let screen := mediaBlock (Ascii.bytes " print , SCREEN") body
    let printer := mediaBlock (Ascii.bytes "Print") body
    let store := (empty screenMedia).run [.add sheet (Ascii.bytes "p\x7bcolor:red\x7d")]
    BlockSource body ∧
      MediaList (Ascii.bytes " print , SCREEN") ["print", "SCREEN"] ∧
      MediaList (Ascii.bytes "Print") ["Print"] ∧
      (store.add sheet screen = store.add sheet body ∧
        (store.readText screen).counts = (store.readText body).counts) ∧
      (store.readText screen).counts = ⟨2, 1, 0, 0⟩ ∧
      store.add sheet printer = store ∧ (store.readText printer).counts = ⟨0, 0, 0, 0⟩ := by
  intro body sheet screen printer store
  have block : BlockSource body := ⟨Or.inr (by decide +kernel), by decide +kernel⟩
  have print : PlainName "print" := by decide +kernel
  have upper : PlainName "Print" := by decide +kernel
  have shown : PlainName "SCREEN" := by decide +kernel
  have none : White [] := by decide +kernel
  have space : White [Ascii.byte ' '] := by decide +kernel
  have both : MediaList (Ascii.bytes " print , SCREEN") ["print", "SCREEN"] :=
    .more space print space (.last space shown none)
  have single : MediaList (Ascii.bytes "Print") ["Print"] :=
    .last none upper none
  have applied := (add_mediaBlock screenMedia [.add sheet (Ascii.bytes "p\x7bcolor:red\x7d")]
    sheet block both).1 (by decide +kernel)
  have skipped := (add_mediaBlock screenMedia [.add sheet (Ascii.bytes "p\x7bcolor:red\x7d")]
    sheet block single).2 (by decide +kernel)
  exact ⟨block, both, single, applied, by decide +kernel, skipped.1, by decide +kernel⟩

end Store

end StyleCascade
