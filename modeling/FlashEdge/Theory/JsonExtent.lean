import FlashEdge.Theory.JsonRoundTrip

/-!
# JSON: where an object begins

An object is found again in a longer text only at its own beginning:
`Json.blank_of_parse` says that when a text parses, and its rest from some opening brace
on parses as well, nothing but white space stands before that brace. So what is in front
of a printed object makes the whole fail, and a printed object parses from none of its
later braces on, whether that brace opens a part of the object or stands in a string.

For a brace in a string the argument is about the lexer. Read from that brace on as a
text of its own, what is inside a string counts as outside and what is outside counts
as inside, all the way (`Opposite`); so one of the two readers ends inside a string.
-/

namespace FlashEdge

namespace Json

/-! ## White space -/

/-- Nothing but white space. -/
def Blank (text : List CodeUnit) : Prop := ∀ c ∈ text, isSpace c = true

instance (text : List CodeUnit) : Decidable (Blank text) :=
  List.decidableBAll (fun c => isSpace c = true) text

theorem run_blank {text : List CodeUnit} (hb : Blank text) :
    lexer.run .out text = some (.out, []) := by
  induction text with
  | nil => rfl
  | cons c text ih =>
    have hstep : lexer.step .out c = some (.out, []) := if_pos (hb c List.mem_cons_self)
    exact Transducer.run_cons hstep (ih fun d hd => hb d (List.mem_cons_of_mem _ hd))

theorem parse_blank_append {text : List CodeUnit} (hb : Blank text) (rest : List CodeUnit) :
    parse (text ++ rest) = parse rest := by
  unfold parse lex
  rw [lexFrom_out (run_blank hb), emit_nil]

/-- Behind a token that ends with the next unit. -/
theorem lexAfter_inv {token : Option Token} {c : CodeUnit} {s' : LexState} {ts : List Token}
    (hafter : lexAfter token c = some (s', ts)) :
    ∃ t ts', token = some t ∧ lexOut c = some (s', ts') ∧ ts = t :: ts' := by
  cases token with
  | none => cases hafter
  | some t =>
    obtain ⟨⟨u, ts'⟩, hout, heq⟩ := Option.map_eq_some_iff.mp hafter
    cases heq
    exact ⟨t, ts', rfl, hout, rfl⟩

/-- A unit that leaves the lexer outside with nothing read is white space. -/
theorem step_out_nil {s : LexState} {c : CodeUnit}
    (hstep : lexer.step s c = some (.out, [])) : s = .out ∧ isSpace c = true := by
  cases s with
  | out =>
    refine ⟨rfl, ?_⟩
    by_contra hspace
    change lexOut c = _ at hstep
    unfold lexOut at hstep
    rw [if_neg hspace] at hstep
    repeat' split at hstep
    all_goals cases hstep
  | string read =>
    change (if c = unit '"' then _ else _) = _ at hstep
    repeat' split at hstep
    all_goals cases hstep
  | escape read =>
    change (if c = unit 'u' then _ else (unescape c).map _) = _ at hstep
    cases hd : unescape c <;> rw [hd] at hstep <;> split at hstep <;> cases hstep
  | unicode read value digits =>
    change (hexValue c).map _ = _ at hstep
    cases hd : hexValue c with
    | none =>
      rw [hd] at hstep
      cases hstep
    | some d =>
      rw [hd, Option.map_some] at hstep
      split at hstep <;> cases hstep
  | number read =>
    change (if isNumeric c = true then _ else lexAfter (numberToken read) c) = _ at hstep
    split at hstep
    · cases hstep
    · obtain ⟨_, _, -, -, hnil⟩ := lexAfter_inv hstep
      cases hnil
  | word read =>
    change (if isLower c = true then _ else lexAfter (wordToken read) c) = _ at hstep
    split at hstep
    · cases hstep
    · obtain ⟨_, _, -, -, hnil⟩ := lexAfter_inv hstep
      cases hnil

theorem blank_of_run {s : LexState} {text : List CodeUnit}
    (hrun : lexer.run s text = some (.out, [])) : s = .out ∧ Blank text := by
  induction text generalizing s with
  | nil =>
    cases hrun
    exact ⟨rfl, fun _ hc => by cases hc⟩
  | cons c text ih =>
    obtain ⟨s', out, out', hstep, hrest, hnil⟩ := Transducer.run_cons_inv hrun
    obtain ⟨rfl, rfl⟩ := List.append_eq_nil_iff.mp hnil.symm
    obtain ⟨rfl, hblank⟩ := ih hrest
    obtain ⟨rfl, hspace⟩ := step_out_nil hstep
    refine ⟨rfl, fun d hd => ?_⟩
    rcases List.mem_cons.mp hd with rfl | hd
    · exact hspace
    · exact hblank d hd

/-! ## Behind a text -/

theorem lexFrom_lexAfter {s : LexState} {token : Option Token} {c : CodeUnit}
    {rest : List CodeUnit} {ts : List Token} (hstep : lexer.step s c = lexAfter token c)
    (hlex : lexFrom s (c :: rest) = some ts) :
    ∃ t us, lex (c :: rest) = some us ∧ ts = t :: us := by
  cases token with
  | none =>
    unfold lexFrom Transducer.run at hlex
    rw [hstep] at hlex
    cases hlex
  | some t =>
    rw [lexFrom_after rest hstep] at hlex
    obtain ⟨us, hus, rfl⟩ := Option.map_eq_some_iff.mp hlex
    exact ⟨t, us, hus, rfl⟩

/-- The tokens in front of an opening brace, and those from it on. -/
theorem lexFrom_brace {m : LexState} {rest : List CodeUnit} {ts : List Token}
    (hstring : ∀ read, m ≠ .string read)
    (hlex : lexFrom m (unit '{' :: rest) = some ts) :
    ∃ last us, lex (unit '{' :: rest) = some us ∧ ts = last ++ us ∧ (last = [] → m = .out) := by
  cases m with
  | out => exact ⟨[], ts, hlex, rfl, fun _ => rfl⟩
  | string read => exact absurd rfl (hstring read)
  | escape read => cases hlex
  | unicode read value digits => cases hlex
  | number read =>
    obtain ⟨t, us, hus, rfl⟩ := lexFrom_lexAfter
      (show lexer.step (.number read) (unit '{') = lexAfter (numberToken read) (unit '{') from rfl)
      hlex
    exact ⟨[t], us, hus, rfl, fun hnil => by cases hnil⟩
  | word read =>
    obtain ⟨t, us, hus, rfl⟩ := lexFrom_lexAfter
      (show lexer.step (.word read) (unit '{') = lexAfter (wordToken read) (unit '{') from rfl)
      hlex
    exact ⟨[t], us, hus, rfl, fun hnil => by cases hnil⟩

theorem lexFrom_cut {s : LexState} {text rest : List CodeUnit} {ts : List Token}
    (hlex : lexFrom s (text ++ rest) = some ts) :
    ∃ m ts₁ ts₂, lexer.run s text = some (m, ts₁) ∧ lexFrom m rest = some ts₂ ∧
      ts = ts₁ ++ ts₂ := by
  have hall := hlex
  unfold lexFrom at hlex
  split at hlex
  · cases hlex
  next t us hrun =>
  obtain ⟨m, ts₁, _, htext, -, -⟩ := Transducer.run_append_inv hrun
  rw [lexFrom_append htext] at hall
  obtain ⟨ts₂, hts₂, rfl⟩ := Option.map_eq_some_iff.mp hall
  exact ⟨m, ts₁, ts₂, htext, hts₂, rfl⟩

/-! ## Values inside values -/

theorem complete_ne_value (v : Json) (stack : List Frame) :
    complete v stack ≠ .value [] := by
  cases stack with
  | nil => nofun
  | cons frame stack => cases frame <;> nofun

theorem parseValue_ne_value (stack : List Frame) (t : Token) :
    parseValue stack t ≠ some (.value []) := by
  intro hparse
  cases t with
  | lbrace => cases hparse
  | lbracket => cases hparse
  | string s => exact complete_ne_value _ _ (Option.some.inj hparse)
  | atom v => exact complete_ne_value _ _ (Option.some.inj hparse)
  | _ => cases hparse

/-- Behind an opening bracket, everything but the closing one begins an item. -/
theorem parseStep_itemOrEnd {stack : List Frame} {t : Token} (ht : t ≠ .rbracket) :
    parseStep (.itemOrEnd stack) t = parseValue (.array [] :: stack) t := by
  cases t with
  | rbracket => exact absurd rfl ht
  | _ => rfl

/-- No token leads back to the beginning. -/
theorem parseStep_ne_value (q : ParseState) (t : Token) : parseStep q t ≠ some (.value []) := by
  intro hparse
  cases q with
  | value stack => exact parseValue_ne_value _ _ hparse
  | itemOrEnd stack =>
    by_cases ht : t = .rbracket
    · subst ht
      exact complete_ne_value _ _ (Option.some.inj hparse)
    · rw [parseStep_itemOrEnd ht] at hparse
      exact parseValue_ne_value _ _ hparse
  | done v => cases hparse
  | _ =>
    cases t
    all_goals first
      | exact complete_ne_value _ _ (Option.some.inj hparse)
      | cases hparse

/-- A value is expected with nothing around it only at the very beginning. -/
theorem read_eq_start {ts : List Token}
    (hread : grammar.read (.value []) ts = some (.value [])) : ts = [] := by
  rcases List.eq_nil_or_concat ts with rfl | ⟨us, t, rfl⟩
  · rfl
  · rw [List.concat_eq_append, Acceptor.read_append] at hread
    obtain ⟨q, -, hlast⟩ := Option.bind_eq_some_iff.mp hread
    rw [Acceptor.read_singleton] at hlast
    exact absurd hlast (parseStep_ne_value q t)

/-- The same expectation, with more around it. -/
def ParseState.within (outer : List Frame) : ParseState → ParseState
  | .value stack => .value (stack ++ outer)
  | .itemOrEnd stack => .itemOrEnd (stack ++ outer)
  | .keyOrEnd stack => .keyOrEnd (stack ++ outer)
  | .key fields stack => .key fields (stack ++ outer)
  | .colon fields name stack => .colon fields name (stack ++ outer)
  | .afterItem items stack => .afterItem items (stack ++ outer)
  | .afterField fields stack => .afterField fields (stack ++ outer)
  | .done v => complete v outer

theorem within_complete (outer : List Frame) (v : Json) (stack : List Frame) :
    (complete v stack).within outer = complete v (stack ++ outer) := by
  cases stack with
  | nil => rfl
  | cons frame stack => cases frame <;> rfl

theorem parseValue_within {outer stack : List Frame} {t : Token} {q : ParseState}
    (hparse : parseValue stack t = some q) :
    parseValue (stack ++ outer) t = some (q.within outer) := by
  cases t <;> cases hparse
  · rfl
  · rfl
  · exact congrArg some (within_complete outer _ stack).symm
  · exact congrArg some (within_complete outer _ stack).symm

theorem parseStep_within {outer : List Frame} {q q' : ParseState} {t : Token}
    (hparse : parseStep q t = some q') : parseStep (q.within outer) t = some (q'.within outer) := by
  cases q with
  | value stack => exact parseValue_within hparse
  | itemOrEnd stack =>
    show parseStep (.itemOrEnd (stack ++ outer)) t = _
    by_cases ht : t = .rbracket
    · subst ht
      cases hparse
      exact congrArg some (within_complete outer _ stack).symm
    · rw [parseStep_itemOrEnd ht] at hparse ⊢
      exact parseValue_within hparse
  | done v => cases hparse
  | _ =>
    cases t
    all_goals cases hparse
    all_goals first
      | rfl
      | exact congrArg some (within_complete outer _ _).symm

/-- What is read with nothing around it is read in the same way inside. -/
theorem read_within (outer : List Frame) {q q' : ParseState} {ts : List Token}
    (hread : grammar.read q ts = some q') :
    grammar.read (q.within outer) ts = some (q'.within outer) := by
  induction ts generalizing q with
  | nil =>
    cases hread
    rfl
  | cons t ts ih =>
    rw [Acceptor.read_cons] at hread ⊢
    obtain ⟨p, hstep, hrest⟩ := Option.bind_eq_some_iff.mp hread
    have hstep' : grammar.next (q.within outer) t = some (p.within outer) := parseStep_within hstep
    rw [hstep', Option.bind_some]
    exact ih hrest

/-- What the tokens of a value are read as, where an opening brace may stand: the
value, in whatever is around it. -/
theorem read_value_of_brace {q : ParseState} {ts : List Token} {v w : Json}
    (hvalue : grammar.read (.value []) (.lbrace :: ts) = some (.done v))
    (hread : grammar.read q (.lbrace :: ts) = some (.done w)) : q = .value [] := by
  have hwithin : ∀ stack, grammar.read (.value stack) (.lbrace :: ts) =
      some (complete v stack) := by
    intro stack
    exact read_within stack hvalue
  cases q with
  | value stack =>
    rw [hwithin] at hread
    cases stack with
    | nil => rfl
    | cons frame stack => cases frame <;> cases hread
  | itemOrEnd stack =>
    have hitem := hwithin (.array [] :: stack)
    have hsame : grammar.read (.itemOrEnd stack) (.lbrace :: ts) =
        grammar.read (.value (.array [] :: stack)) (.lbrace :: ts) := rfl
    rw [hsame, hitem] at hread
    cases hread
  | _ => cases hread

theorem read_of_parseTokens {ts : List Token} {v : Json} (hparse : parseTokens ts = some v) :
    grammar.read (.value []) ts = some (.done v) := by
  unfold parseTokens at hparse
  split at hparse
  · next hread =>
    cases hparse
    exact hread
  · cases hparse

/-- Tokens in front of a whole value that begins with a brace. -/
theorem nil_of_parseTokens_append {before ts : List Token} {v w : Json}
    (hvalue : grammar.read (.value []) (.lbrace :: ts) = some (.done v))
    (hall : parseTokens (before ++ .lbrace :: ts) = some w) : before = [] := by
  have hread := read_of_parseTokens hall
  rw [Acceptor.read_append] at hread
  obtain ⟨q, hbefore, hrest⟩ := Option.bind_eq_some_iff.mp hread
  obtain rfl := read_value_of_brace hvalue hrest
  exact read_eq_start hbefore

/-! ## Inside a string -/

/-- Outside strings. -/
def Outside : LexState → Prop
  | .out => True
  | .number _ => True
  | .word _ => True
  | _ => False

/-- One of two readers is inside a string where the other one is outside. -/
def Opposite (s t : LexState) : Prop :=
  (∃ read, s = .string read ∧ Outside t) ∨ (Outside s ∧ ∃ read, t = .string read)

/-- A unit outside strings: no backslash; a quote begins a string, and nothing else
does. -/
theorem outside_lexOut {c : CodeUnit} {s' : LexState} {ts : List Token}
    (hout : lexOut c = some (s', ts)) :
    c ≠ unit '\\' ∧ (c = unit '"' → s' = .string []) ∧ (c ≠ unit '"' → Outside s') := by
  refine ⟨?_, ?_, fun hquote => ?_⟩
  · rintro rfl
    cases hout
  · rintro rfl
    cases hout
    rfl
  · unfold lexOut at hout
    rw [if_neg hquote] at hout
    repeat' split at hout
    all_goals cases hout
    all_goals trivial

theorem outside_step {s s' : LexState} {c : CodeUnit} {ts : List Token} (hs : Outside s)
    (hstep : lexer.step s c = some (s', ts)) :
    c ≠ unit '\\' ∧ (c = unit '"' → s' = .string []) ∧ (c ≠ unit '"' → Outside s') := by
  cases s with
  | out => exact outside_lexOut hstep
  | number read =>
    change (if isNumeric c = true then _ else lexAfter (numberToken read) c) = _ at hstep
    split at hstep
    · next hn =>
      cases hstep
      refine ⟨?_, ?_, fun _ => trivial⟩
      · rintro rfl
        exact absurd hn (by decide)
      · rintro rfl
        exact absurd hn (by decide)
    · obtain ⟨_, _, -, hout, -⟩ := lexAfter_inv hstep
      exact outside_lexOut hout
  | word read =>
    change (if isLower c = true then _ else lexAfter (wordToken read) c) = _ at hstep
    split at hstep
    · next hl =>
      cases hstep
      refine ⟨?_, ?_, fun _ => trivial⟩
      · rintro rfl
        exact absurd hl (by decide)
      · rintro rfl
        exact absurd hl (by decide)
    · obtain ⟨_, _, -, hout, -⟩ := lexAfter_inv hstep
      exact outside_lexOut hout
  | _ => exact hs.elim

/-- A unit in a string: a quote ends it, and only a backslash or a quote leaves it. -/
theorem string_step {read : List CodeUnit} {s' : LexState} {c : CodeUnit} {ts : List Token}
    (hback : c ≠ unit '\\') (hstep : lexer.step (.string read) c = some (s', ts)) :
    (c = unit '"' → s' = .out) ∧ (c ≠ unit '"' → ∃ read', s' = .string read') := by
  refine ⟨?_, fun hquote => ?_⟩
  · rintro rfl
    cases hstep
    rfl
  · change (if c = unit '"' then _ else if c = unit '\\' then _ else if c.toNat < 0x20 then _
      else _) = _ at hstep
    rw [if_neg hquote, if_neg hback] at hstep
    split at hstep
    · cases hstep
    · cases hstep
      exact ⟨_, rfl⟩

/-- Readers that are opposite stay so. -/
theorem opposite_step {s t s' t' : LexState} {c : CodeUnit} {ts us : List Token}
    (ho : Opposite s t) (hs : lexer.step s c = some (s', ts))
    (ht : lexer.step t c = some (t', us)) : Opposite s' t' := by
  rcases ho with ⟨read, rfl, hout⟩ | ⟨hout, read, rfl⟩
  · obtain ⟨hback, hquote, hplain⟩ := outside_step hout ht
    obtain ⟨hend, hgo⟩ := string_step hback hs
    by_cases hc : c = unit '"'
    · exact .inr ⟨hend hc ▸ trivial, [], hquote hc⟩
    · obtain ⟨read', rfl⟩ := hgo hc
      exact .inl ⟨read', rfl, hplain hc⟩
  · obtain ⟨hback, hquote, hplain⟩ := outside_step hout hs
    obtain ⟨hend, hgo⟩ := string_step hback ht
    by_cases hc : c = unit '"'
    · exact .inl ⟨[], hquote hc, hend hc ▸ trivial⟩
    · obtain ⟨read', rfl⟩ := hgo hc
      exact .inr ⟨hplain hc, read', rfl⟩

theorem run_of_lexFrom {s : LexState} {text : List CodeUnit} {ts : List Token}
    (hlex : lexFrom s text = some ts) :
    ∃ t us last, lexer.run s text = some (t, us) ∧ lexEnd t = some last := by
  unfold lexFrom at hlex
  split at hlex
  · cases hlex
  · next t us hrun =>
    obtain ⟨last, hlast, -⟩ := Option.map_eq_some_iff.mp hlex
    exact ⟨t, us, last, hrun, hlast⟩

/-- No text is read to its end by both. -/
theorem not_opposite {s t : LexState} {text : List CodeUnit} {ts us : List Token}
    (ho : Opposite s t) (hs : lexFrom s text = some ts) (ht : lexFrom t text = some us) :
    False := by
  obtain ⟨s', _, last, hs', hlast⟩ := run_of_lexFrom hs
  obtain ⟨t', _, last', ht', hlast'⟩ := run_of_lexFrom ht
  rcases Transducer.run_induction opposite_step ho hs' ht' with ⟨read, rfl, -⟩ | ⟨-, read, rfl⟩
  · cases hlast
  · cases hlast'

/-! ## Where an object begins -/

/-- **Nothing stands before an object.** -/
theorem blank_of_parse {before rest : List CodeUnit} {v w : Json}
    (hobject : parse (unit '{' :: rest) = some v)
    (hall : parse (before ++ unit '{' :: rest) = some w) : Blank before := by
  obtain ⟨us, hus, hvalue⟩ := Option.bind_eq_some_iff.mp hobject
  obtain ⟨ts, hlex, hts⟩ := Option.bind_eq_some_iff.mp hall
  obtain ⟨m, ts₁, ts₂, hbefore, hrest, rfl⟩ := lexFrom_cut hlex
  have hstring : ∀ read, m ≠ .string read := by
    rintro read rfl
    have ho : Opposite (.string read) .out := .inl ⟨read, rfl, trivial⟩
    exact not_opposite ho hrest hus
  obtain ⟨last, us', hus', rfl, hlast⟩ := lexFrom_brace hstring hrest
  obtain rfl : us = us' := Option.some.inj (hus.symm.trans hus')
  -- what is read from the brace on is a value, so no token can stand before it
  have hbrace : lexer.step .out (unit '{') = some (.out, [.lbrace]) := rfl
  obtain ⟨us, -, rfl⟩ := Option.map_eq_some_iff.mp ((lexFrom_cons hbrace rest).symm.trans hus)
  rw [← List.append_assoc] at hts
  have hnil := nil_of_parseTokens_append (read_of_parseTokens hvalue) hts
  obtain ⟨rfl, rfl⟩ := List.append_eq_nil_iff.mp hnil
  obtain rfl := hlast rfl
  exact (blank_of_run hbefore).2

end Json

end FlashEdge
