import StyleCascade.Proofs.Declared.Quoted
import StyleCascade.Proofs.Resolve.Inherit

namespace StyleCascade

open Component (quoted split)

namespace Component

variable {text found : String}

theorem length_of_unquote? (read : unquote? text = some found) :
    found.toList.length + 2 ≤ text.toList.length := by
  obtain ⟨inner, between, rfl⟩ := Option.map_eq_some_iff.mp read
  obtain ⟨quote, -, shape⟩ := eq_of_quotedChars? between
  have shorter := length_unescape_le inner
  rw [String.toList_ofList, shape, List.length_cons, List.length_append, List.length_singleton]
  omega

theorem unquote?_of_classify (strung : classify text = .str found) :
    unquote? text = some found := by
  unfold classify at strung
  split at strung
  · next read =>
    cases strung
    exact read
  split at strung
  · split at strung <;> cases strung
  split at strung
  · unfold ofFunction at strung
    split at strung
    · cases strung
    split at strung <;> cases strung
  · unfold ofPlain at strung
    split at strung
    · next numeric =>
      have number := isNumeric_of_numeric? numeric
      rw [strung] at number
      cases number
    · split at strung <;> cases strung

end Component

namespace Basis

theorem componentString?_eq_some_iff {component text : String} :
    componentString? component = some text ↔ Component.unquote? component = some text := by
  constructor
  · intro found
    unfold componentString? at found
    split at found
    · next strung =>
      cases found
      exact Component.unquote?_of_classify strung
    · cases found
  · intro read
    simp only [componentString?, Component.classify, read]

/-- Each string is at least two characters shorter than its component. -/
theorem length_join_of_mapM {components texts : List String}
    (found : components.mapM componentString? = some texts) :
    (String.join texts).toList.length + 2 * components.length ≤
      (components.map String.toList).flatten.length := by
  induction components generalizing texts with
  | nil =>
    cases found
    exact Nat.le_refl _
  | cons component rest ih =>
    rw [List.mapM_cons] at found
    obtain ⟨text, first, others⟩ := Option.bind_eq_some_iff.mp found
    obtain ⟨more, behind, shape⟩ := Option.bind_eq_some_iff.mp others
    cases shape
    have shorter := Component.length_of_unquote? (componentString?_eq_some_iff.mp first)
    have bound := ih behind
    rw [String.toList_join] at bound ⊢
    rw [List.flatMap_cons, List.length_append, List.map_cons, List.flatten_cons,
      List.length_append, List.length_cons]
    omega

/-- A text in quotes that is one component means what is read from it. -/
theorem joinedStrings?_of_alone {text : String} (alone : split text = [text]) :
    joinedStrings? text = Component.unquote? text := by
  have single : componentString? text = Component.unquote? text := by
    refine Option.ext fun found => ?_
    rw [componentString?_eq_some_iff]
  rw [joinedStrings?, alone, List.mapM_cons, single]
  cases Component.unquote? text with
  | none => rfl
  | some found => simp [List.mapM_nil, String.join]

/-- A text means itself where it stands in quotes just if it has no backslash, and nothing in it
ends the component. -/
theorem joinedStrings?_quoted_iff (text : String) :
    joinedStrings? (quoted .double text.toList) = some text ↔
      '\\' ∉ text.toList ∧ split (quoted .double text.toList) = [quoted .double text.toList] := by
  have meansIff (alone : split (quoted .double text.toList) = [quoted .double text.toList]) :
      joinedStrings? (quoted .double text.toList) = some text ↔ '\\' ∉ text.toList := by
    rw [joinedStrings?_of_alone alone, Component.unquote?_plain_iff]
  refine ⟨fun means => ?_, fun ⟨plain, alone⟩ => (meansIff alone).mpr plain⟩
  obtain ⟨texts, found, rfl⟩ := Option.map_eq_some_iff.mp means
  have lengths := length_join_of_mapM found
  have inside :=
    (Component.flatten_split_sublist (quoted .double (String.join texts).toList)).length_le
  have whole := congrArg List.length (Component.toList_quoted .double (String.join texts).toList)
  rw [List.length_cons, List.length_append, List.length_singleton] at whole
  -- two components would lose four quotes, and none has no string
  have alone : split (quoted .double (String.join texts).toList) =
      [quoted .double (String.join texts).toList] := by
    match parts : split (quoted .double (String.join texts).toList) with
    | [] =>
      rw [parts] at found
      cases found
      exact absurd parts (by decide)
    | [only] =>
      rw [parts] at lengths
      rw [List.map_singleton, List.flatten_singleton, List.length_singleton] at lengths
      rw [Component.eq_of_split_singleton parts (by omega)]
    | _ :: _ :: _ =>
      rw [parts, List.length_cons, List.length_cons] at lengths
      rw [parts] at inside
      omega
  exact ⟨(meansIff alone).mp means, alone⟩

/-- Content that is declared as a text in quotes is the strings of the text, joined. -/
theorem acceptContent_quoted (inner : List Char) :
    acceptContent (Value.ofText (quoted .double inner)) =
      (joinedStrings? (quoted .double inner)).elim (.error (.invalid (quoted .double inner)))
        (fun joined => .ok (writtenContent (some joined))) := by
  rw [Value.ofText_quoted]
  split
  · next alone =>
    have means := joinedStrings?_of_alone alone
    cases read : Component.unquote? (quoted .double inner) with
    | none =>
      rw [read] at means
      simp only [Option.elim_none, acceptContent, means]
    | some text =>
      rw [read] at means
      simp only [Option.elim_some, acceptContent, means]
  · simp only [acceptContent]
    cases joinedStrings? (quoted .double inner) <;> rfl

/-- A text in quotes is no script, and no word. -/
theorem accept_content_quoted (basis : Basis) (answers : Answers) (inner : List Char) :
    let value := Value.ofText (quoted .double inner)
    evaluated answers.script value = .ok value ∧
      basis.acceptPlain answers.image? .content value = acceptContent value := by
  intro value
  have shape : value = _ := Value.ofText_quoted .double inner
  rw [shape]
  split
  · cases Component.unquote? (quoted .double inner) <;> exact ⟨rfl, rfl⟩
  · exact ⟨rfl, rfl⟩

end Basis

namespace Record

theorem quotedContent_eq (content : String) :
    quotedContent content = quoted .double content.toList := by
  rw [← String.toList_inj, Component.toList_quoted, quotedContent, String.toList_append,
    String.toList_append]
  rfl

theorem content_eq_iff {record : Record} {content : Option String} :
    record.text? .content = content.map quotedContent ↔ record.content = content := by
  have injective : Function.Injective quotedContent := by
    intro one other same
    rw [quotedContent_eq, quotedContent_eq, ← String.toList_inj, Component.toList_quoted,
      Component.toList_quoted] at same
    exact String.toList_inj.mp (List.append_cancel_right (List.cons.inj same).2)
  exact (Option.map_injective injective).eq_iff

end Record

section Reached

variable {σ : Type} {config : Config} {hosts : Hosts σ} {tables : Tables} {held : Held}

/-- Where content is declared as a text in quotes and nothing weaker is, the record has what the
text means, if anything. -/
theorem Reached.resolve_content (reached : Reached config hosts tables held)
    (parent : Option Record) (state : σ) {set : PropertySet} {inner : List Char}
    (declares : set.get? .content = some (Value.ofText (quoted .double inner))) :
    (resolve hosts ⟨config, parent⟩ held tables state [set]).record.value.content =
      Basis.joinedStrings? (quoted .double inner) := by
  let basis : Basis := ⟨config, parent⟩
  have only : Basis.declared [set] .content = [Value.ofText (quoted .double inner)] := by
    rw [Basis.declared, List.filterMap_cons, declares]
    rfl
  obtain ⟨course, leads⟩ := reached.course (hosts.have_any config) parent state [set]
  have read := Basis.acceptContent_quoted inner
  rw [← Record.content_eq_iff]
  cases means : Basis.joinedStrings? (quoted .double inner) with
  | none =>
    rw [means, Option.elim_none] at read
    have rejects : ∀ value ∈ Basis.declared [set] .content, ∀ answers, Traits.any.Allows answers →
        ∃ cause, basis.accept answers .content value = .error cause := by
      rw [only]
      intro value inside answers _
      obtain ⟨evaluates, comes⟩ := basis.accept_content_quoted answers inner
      rw [List.mem_singleton.mp inside, Basis.accept_of_evaluated evaluates, comes, read]
      exact ⟨_, rfl⟩
    have start : Draft.Settled .content none (Draft.start basis held tables course.root).1 :=
      Draft.start_initial rfl (by decide) ⟨0, basis.rootColor⟩
        ⟨0, ⟨config.rootFont, course.root⟩⟩ basis held tables course.root
    exact leads.text?_of_settled (leads.stays start (leads.not_taken rejects)) (by decide) (by simp)
  | some joined =>
    rw [means, Option.elim_some] at read
    have takes (answers : Answers) (_ : Traits.any.Allows answers) :
        Basis.evaluated answers.script (Value.ofText (quoted .double inner)) =
            .ok (Value.ofText (quoted .double inner)) ∧
          basis.acceptPlain answers.image? .content (Value.ofText (quoted .double inner)) =
            .ok (Basis.writtenContent (some joined)) := by
      obtain ⟨evaluates, comes⟩ := basis.accept_content_quoted answers inner
      exact ⟨evaluates, comes.trans read⟩
    obtain ⟨taken, -⟩ := leads.taken_first only takes
    refine leads.text?_of_settled (leads.settles reached.backs.1 taken ?_) (by decide) (by simp)
    intro draft tables sound clear
    exact
      { waiting := clear.waiting
        align := clear.align
        text := rfl
        own := fun line => absurd line (by decide) }

end Reached

/-- A string is read back from its text just if each of its backslashes stands directly before a
quote and the text is one component; so it is if it has no backslash. And content is read back from
the text of a record, in whichever context and below whichever parent, just if it has no backslash
and the text is one component; so it is if it has no quote either. -/
theorem strings_read_back (string : String) :
    (Value.ofText (Value.str string).text = .str string ↔
      Component.EscapesQuotes string.toList ∧
        split (Value.str string).text = [(Value.str string).text]) ∧
    ('\\' ∉ string.toList → Value.ofText (Value.str string).text = .str string) ∧
    ∀ record : Record, record.content = some string →
      ∃ printed, record.text? .content = some printed ∧
        ∀ (σ : Type) config (hosts : Hosts σ) tables held, Reached config hosts tables held →
          ∀ (parent : Option Record) (state : σ) (set : PropertySet),
            set.get? .content = some (Value.ofText printed) →
            let again := (resolve hosts ⟨config, parent⟩ held tables state [set]).record.value
            (again.content = some string ↔
              '\\' ∉ string.toList ∧ split printed = [printed]) ∧
            ('\\' ∉ string.toList → '"' ∉ string.toList → again.content = some string) := by
  refine ⟨Value.ofText_text_str_iff string, Value.ofText_text_str, fun record has => ?_⟩
  refine ⟨quoted .double string.toList, ?_, ?_⟩
  · rw [← Record.quotedContent_eq]
    exact congrArg (Option.map Record.quotedContent) has
  intro σ config hosts tables held reached parent state set declares again
  have means : again.content = Basis.joinedStrings? (quoted .double string.toList) :=
    reached.resolve_content parent state declares
  have read := Basis.joinedStrings?_quoted_iff string
  rw [← means] at read
  refine ⟨read, fun plain noQuote => read.mpr ⟨plain, Component.split_quoted ?_⟩⟩
  rw [Component.bare_of_plain plain]
  exact ⟨noQuote, plain⟩

/-- Five inches: a quote inside is written with a backslash in a value, and as it is in content. -/
theorem strings_read_back_inches :
    let hosts : Hosts Unit := .plain
    let root : Basis := ⟨.screen, none⟩
    let first := resolve hosts root [] .empty () [.ofChoice (fun
      | .content => some (.str "5\"x")
      | _ => none)]
    let set : PropertySet := .ofChoice (fun
      | .content => some (Value.ofText "\"5\"x\"")
      | _ => none)
    (Value.str "5\"x").text = "\"5\\\"x\"" ∧ Value.ofText "\"5\\\"x\"" = .str "5\"x" ∧
      Reached .screen hosts first.tables [first.record] ∧
      first.record.value.content = some "5\"x" ∧
      first.record.value.text? .content = some "\"5\"x\"" ∧
      (resolve hosts root [first.record] first.tables () [set]).record.value.content =
        some "5\"x" := by
  intro hosts root first set
  obtain ⟨-, values, contents⟩ := strings_read_back "5\"x"
  have has : first.record.value.content = some "5\"x" := by decide +kernel
  have reached : Reached .screen hosts first.tables [first.record] :=
    .resolved .fresh none (by simp) () _ first rfl
  obtain ⟨printed, shown, again⟩ := contents first.record.value has
  have known : first.record.value.text? .content = some "\"5\"x\"" :=
    Record.content_eq_iff.mpr has
  cases shown.symm.trans known
  obtain ⟨read, -⟩ := again Unit .screen hosts first.tables [first.record] reached none () set
    (PropertySet.get?_ofChoice _ _)
  refine ⟨by decide +kernel, values (by decide), reached, has, known, ?_⟩
  unfold root
  exact read.mpr ⟨by decide, by decide +kernel⟩

/-- A backslash is printed as it is, and read as the beginning of an escape, in a value and in
content; and content with quotes around a space is read as two strings. -/
theorem strings_not_read_back :
    let hosts : Hosts Unit := .plain
    let root : Basis := ⟨.screen, none⟩
    let content (value : Value) : PropertySet := .ofChoice (fun
      | .content => some value
      | _ => none)
    let escape := resolve hosts root [] .empty () [content (.str "a\\b")]
    let apart := resolve hosts root [] .empty () [content (.str "a\" \"b")]
    ((Value.str "a\\b").text = "\"a\\b\"" ∧ Value.ofText "\"a\\b\"" = .str "a\x0b") ∧
      (escape.record.value.text? .content = some "\"a\\b\"" ∧
        (resolve hosts root [escape.record] escape.tables ()
          [content (Value.ofText "\"a\\b\"")]).record.value.content = some "a\x0b") ∧
      apart.record.value.text? .content = some "\"a\" \"b\"" ∧
        (resolve hosts root [apart.record] apart.tables ()
          [content (Value.ofText "\"a\" \"b\"")]).record.value.content = some "ab" := by
  intro hosts root content escape apart
  have value : Value.ofText (quoted .double "a\\b".toList) = .str "a\x0b" :=
    (Value.ofText_quoted_eq_str_iff .double _ _).mpr ⟨by decide +kernel, by decide +kernel⟩
  exact ⟨⟨by decide +kernel, value⟩, ⟨by decide +kernel, by decide +kernel⟩, by decide +kernel,
    by decide +kernel⟩

end StyleCascade
