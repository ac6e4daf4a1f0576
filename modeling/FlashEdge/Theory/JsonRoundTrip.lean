import FlashEdge.Theory.Json
import Mathlib.Tactic.IntervalCases

/-!
# JSON: what is printed is parsed

`Json.parse_print`: a printed value parses as itself, strings with any units in
them included. The proof goes by the two halves of the parser. `lexFrom_print` says
which tokens a printed value lexes to, in front of anything that cannot go on with
its last token, and `read_tokens` that the grammar reads these tokens as a complete
value, wherever a value is expected.
-/

namespace FlashEdge

namespace Json

/-! ## String literals -/

theorem toNat_lt (c : CodeUnit) : c.toNat < 65536 := UInt16.toNat_lt c

theorem hexValue_hexDigit : ∀ n, n < 16 → hexValue (hexDigit n) = some n := by
  decide

/-- The four digits of a unit give the unit back. -/
theorem run_unicodeEscape (read : List CodeUnit) (c : CodeUnit) :
    lexer.run (.string read) (unicodeEscape c) = some (.string (read ++ [c]), []) := by
  have hlt := toNat_lt c
  have h₁ := hexValue_hexDigit (c.toNat / 4096) (by omega)
  have h₂ := hexValue_hexDigit (c.toNat / 256 % 16) (by omega)
  have h₃ := hexValue_hexDigit (c.toNat / 16 % 16) (by omega)
  have h₄ := hexValue_hexDigit (c.toNat % 16) (by omega)
  have hvalue : (((0 * 16 + c.toNat / 4096) * 16 + c.toNat / 256 % 16) * 16 +
      c.toNat / 16 % 16) * 16 + c.toNat % 16 = c.toNat := by omega
  have hlast : lexer.step (.unicode read (((0 * 16 + c.toNat / 4096) * 16 +
      c.toNat / 256 % 16) * 16 + c.toNat / 16 % 16) 3) (hexDigit (c.toNat % 16)) = _ :=
    step_unicode_last h₄
  rw [hvalue, UInt16.ofNat_toNat] at hlast
  exact Transducer.run_cons (step_backslash read) (Transducer.run_cons
    (show lexer.step (.escape read) (unit 'u') = some (.unicode read 0 0, []) from rfl)
    (Transducer.run_cons (step_unicode h₁ (by decide)) (Transducer.run_cons
      (step_unicode h₂ (by decide)) (Transducer.run_cons (step_unicode h₃ (by decide))
        (Transducer.run_cons hlast (Transducer.run_nil _))))))

/-- A backslash and one more unit. -/
theorem run_escaped (read : List CodeUnit) {c d : CodeUnit} (hu : c ≠ unit 'u')
    (hd : unescape c = some d) :
    lexer.run (.string read) [unit '\\', c] = some (.string (read ++ [d]), []) :=
  Transducer.run_cons (step_backslash read)
    (Transducer.run_cons (step_escape hu hd) (Transducer.run_nil _))

theorem run_plain (read : List CodeUnit) {c : CodeUnit} (hquote : c ≠ unit '"')
    (hback : c ≠ unit '\\') (hcontrol : 0x20 ≤ c.toNat) :
    lexer.run (.string read) [c] = some (.string (read ++ [c]), []) :=
  Transducer.run_cons (step_string hquote hback hcontrol) (Transducer.run_nil _)

theorem run_escapeUnit (read : List CodeUnit) (c : CodeUnit) :
    lexer.run (.string read) (escapeUnit c) = some (.string (read ++ [c]), []) := by
  unfold escapeUnit
  split
  · next h => exact h ▸ run_escaped read (by decide) (by decide)
  split
  · next h => exact h ▸ run_escaped read (by decide) (by decide)
  split
  · next h => exact h ▸ run_escaped read (by decide) (by decide)
  split
  · next h => exact h ▸ run_escaped read (by decide) (by decide)
  split
  · next h => exact h ▸ run_escaped read (by decide) (by decide)
  split
  · next h => exact h ▸ run_escaped read (by decide) (by decide)
  split
  · next h => exact h ▸ run_escaped read (by decide) (by decide)
  split
  · exact run_unicodeEscape read c
  · next hquote hback _ _ _ _ _ hplain =>
    exact run_plain read hquote hback (by omega)

/-- A surrogate is no quote, no backslash and no control unit. -/
theorem run_surrogate (read : List CodeUnit) {c : CodeUnit} (hc : 0xD800 ≤ c.toNat) :
    lexer.run (.string read) [c] = some (.string (read ++ [c]), []) := by
  refine run_plain read ?_ ?_ (by omega)
  · rintro rfl
    exact absurd hc (by decide)
  · rintro rfl
    exact absurd hc (by decide)

/-- The inside of a literal is read as the string it stands for. -/
theorem run_escape (read s : List CodeUnit) :
    lexer.run (.string read) (escape s) = some (.string (read ++ s), []) := by
  induction s using escape.induct generalizing read with
  | case1 c d rest hpair ih =>
    rw [escape, if_pos hpair]
    have hc : 0xD800 ≤ c.toNat := (of_decide_eq_true hpair.1).1
    have hd : 0xD800 ≤ d.toNat := by
      have hlow := (of_decide_eq_true hpair.2).1
      omega
    have hrest := Transducer.run_append (run_surrogate read hc)
      (Transducer.run_append (run_surrogate (read ++ [c]) hd) (ih (read ++ [c] ++ [d])))
    simpa using hrest
  | case2 c d rest hpair ih =>
    rw [escape, if_neg hpair]
    simpa using Transducer.run_append (run_escapeUnit read c) (ih (read ++ [c]))
  | case3 c => exact run_escapeUnit read c
  | case4 => simp [escape]

theorem run_quote (s : List CodeUnit) : lexer.run .out (quote s) = some (.out, [.string s]) := by
  have hopen : lexer.step .out (unit '"') = some (.string [], []) := rfl
  have hinside := Transducer.run_append (run_escape [] s)
    (Transducer.run_cons (step_quote s) (Transducer.run_nil _))
  exact Transducer.run_cons hopen hinside

/-! ## The tokens of a value -/

mutual

def tokens : Json → List Token
  | .null => [.atom .null]
  | .bool b => [.atom (.bool b)]
  | .number n => [.atom (.number n)]
  | .string s => [.string s]
  | .array [] => [.lbracket, .rbracket]
  | .array (item :: items) => .lbracket :: tokens item ++ itemTokens items ++ [.rbracket]
  | .object [] => [.lbrace, .rbrace]
  | .object ((key, value) :: fields) =>
    .lbrace :: .string key :: .colon :: tokens value ++ fieldTokens fields ++ [.rbrace]

def itemTokens : List Json → List Token
  | [] => []
  | item :: items => .comma :: tokens item ++ itemTokens items

def fieldTokens : List (List CodeUnit × Json) → List Token
  | [] => []
  | (key, value) :: fields =>
    .comma :: .string key :: .colon :: tokens value ++ fieldTokens fields

end

/-- Some tokens, and then those of what follows. -/
def emit (ts : List Token) (rest : Option (List Token)) : Option (List Token) :=
  rest.map fun us => ts ++ us

@[simp] theorem emit_nil (rest : Option (List Token)) : emit [] rest = rest := by
  cases rest <;> rfl

@[simp] theorem emit_emit (ts us : List Token) (rest : Option (List Token)) :
    emit ts (emit us rest) = emit (ts ++ us) rest := by
  cases rest <;> simp [emit]

theorem lexFrom_append {s t : LexState} {text rest : List CodeUnit} {ts : List Token}
    (hrun : lexer.run s text = some (t, ts)) :
    lexFrom s (text ++ rest) = emit ts (lexFrom t rest) := by
  unfold lexFrom
  cases hrest : lexer.run t rest with
  | none =>
    cases hall : lexer.run s (text ++ rest) with
    | none => rfl
    | some p =>
      obtain ⟨t', _, _, htext, hbs, -⟩ := Transducer.run_append_inv hall
      rw [hrun] at htext
      cases htext
      rw [hrest] at hbs
      cases hbs
  | some p =>
    obtain ⟨u, us⟩ := p
    rw [Transducer.run_append hrun hrest]
    cases hend : lexEnd u <;> simp [emit, hend]

/-- A text that ends outside every token. -/
theorem lexFrom_out {text rest : List CodeUnit} {ts : List Token}
    (hrun : lexer.run .out text = some (.out, ts)) :
    lexFrom .out (text ++ rest) = emit ts (lexFrom .out rest) :=
  lexFrom_append hrun

theorem run_newline (indent : ℕ) : lexer.run .out (newline indent) = some (.out, []) := by
  have hspaces : lexer.run .out (List.replicate indent (unit ' ')) = some (.out, []) := by
    induction indent with
    | zero => rfl
    | succ indent ih =>
      exact Transducer.run_cons (show lexer.step .out (unit ' ') = some (.out, []) from rfl) ih
  exact Transducer.run_cons (show lexer.step .out 0x0A = some (.out, []) from rfl) hspaces

theorem lexFrom_newline (indent : ℕ) (rest : List CodeUnit) :
    lexFrom .out (newline indent ++ rest) = lexFrom .out rest := by
  rw [lexFrom_out (run_newline indent), emit_nil]

theorem lexFrom_quote (s rest : List CodeUnit) :
    lexFrom .out (quote s ++ rest) = emit [.string s] (lexFrom .out rest) :=
  lexFrom_out (run_quote s)

/-- A token of one unit. -/
theorem lexFrom_cons {c : CodeUnit} {ts : List Token}
    (hc : lexer.step .out c = some (.out, ts)) (rest : List CodeUnit) :
    lexFrom .out (c :: rest) = emit ts (lexFrom .out rest) := by
  have hrun := Transducer.run_cons hc (Transducer.run_nil LexState.out)
  rw [List.append_nil] at hrun
  exact lexFrom_out hrun

/-- What follows cannot go on with a number or a word. -/
def Delimited (rest : List CodeUnit) : Prop :=
  ∀ c ∈ rest.head?, isNumeric c = false ∧ isLower c = false

theorem delimited_newline (indent : ℕ) (rest : List CodeUnit) :
    Delimited (newline indent ++ rest) := by
  intro c hc
  obtain rfl : 0x0A = c := by simpa [newline] using hc
  decide

theorem delimited_cons {c : CodeUnit} (hn : isNumeric c = false) (hl : isLower c = false)
    (rest : List CodeUnit) : Delimited (c :: rest) := by
  intro d hd
  obtain rfl : c = d := by simpa using hd
  exact ⟨hn, hl⟩

/-- A token ends with the unit behind it. -/
theorem lexFrom_after {s : LexState} {c : CodeUnit} {t : Token} (rest : List CodeUnit)
    (hstep : lexer.step s c = (lexer.step .out c).map fun p => (p.1, t :: p.2)) :
    lexFrom s (c :: rest) = emit [t] (lexFrom .out (c :: rest)) := by
  unfold lexFrom Transducer.run
  rw [hstep]
  cases lexer.step .out c with
  | none => rfl
  | some p =>
    obtain ⟨u, ts⟩ := p
    dsimp only [Option.map_some]
    cases lexer.run u rest with
    | none => rfl
    | some q =>
      obtain ⟨v, us⟩ := q
      cases hend : lexEnd v <;> simp [emit, hend]

/-- A word, in front of what does not go on with it. -/
theorem lexFrom_word {text rest : List CodeUnit} {t : Token}
    (hrun : lexer.run .out text = some (.word text, [])) (ht : wordToken text = some t)
    (hrest : Delimited rest) : lexFrom .out (text ++ rest) = emit [t] (lexFrom .out rest) := by
  rw [lexFrom_append hrun, emit_nil]
  cases rest with
  | nil => simp [lexFrom, lexEnd, ht, emit]
  | cons c rest =>
    refine lexFrom_after rest ?_
    show (if isLower c = true then _ else lexAfter (wordToken text) c) = _
    rw [(hrest c rfl).2, ht]
    rfl

/-! ## Number literals -/

/-- The units of a number, from the first on. -/
theorem run_numeric (read : List CodeUnit) {text : List CodeUnit}
    (htext : ∀ c ∈ text, isNumeric c = true) :
    lexer.run (.number read) text = some (.number (read ++ text), []) := by
  induction text generalizing read with
  | nil => simp
  | cons c text ih =>
    have hstep : lexer.step (.number read) c = some (.number (read ++ [c]), []) :=
      if_pos (htext c List.mem_cons_self)
    have hrest := ih (read ++ [c]) fun d hd => htext d (List.mem_cons_of_mem _ hd)
    simpa using Transducer.run_cons hstep hrest

theorem toNat_unit {c : Char} (hc : c.toNat < 65536) : (unit c).toNat = c.toNat := by
  unfold unit
  rw [UInt16.toNat_ofNat']
  exact Nat.mod_eq_of_lt hc

theorem toNat_of_isDigit {c : Char} (hc : c.isDigit = true) : 48 ≤ c.toNat ∧ c.toNat ≤ 57 := by
  unfold Char.isDigit at hc
  simpa [Char.le_def, UInt32.le_iff_toNat_le] using hc

theorem isDigitUnit_unit {c : Char} (hc : c.isDigit = true) : isDigitUnit (unit c) = true := by
  have hbounds := toNat_of_isDigit hc
  unfold isDigitUnit
  rw [toNat_unit (by omega)]
  exact decide_eq_true hbounds

/-- A character of a number is a unit of a number, and comes back from it. -/
theorem isNumeric_unit {c : Char} (hc : Decimal.IsNumberChar c) :
    isNumeric (unit c) = true ∧ Char.ofNat (unit c).toNat = c := by
  rcases hc with hdigit | rfl | rfl | rfl | rfl
  · have hbounds := toNat_of_isDigit hdigit
    refine ⟨?_, ?_⟩
    · unfold isNumeric
      rw [isDigitUnit_unit hdigit]
      rfl
    · rw [toNat_unit (by omega), Char.ofNat_toNat]
  all_goals exact ⟨by decide, by decide⟩

theorem numberToken_print (d : Decimal) :
    numberToken (d.print.map unit) = some (.atom (.number d)) := by
  have hback : (d.print.map unit).map (fun c => Char.ofNat c.toNat) = d.print := by
    rw [List.map_map]
    refine (List.map_congr_left fun c hc => ?_).trans (List.map_id _)
    exact (isNumeric_unit (d.isNumberChar_print c hc)).2
  unfold numberToken
  rw [hback, Decimal.read_print]
  rfl

/-- A digit, or a minus sign, begins a number. -/
theorem step_number {c : Char} (hc : c.isDigit = true ∨ c = '-') :
    lexer.step .out (unit c) = some (.number [unit c], []) := by
  rcases hc with hdigit | rfl
  · obtain ⟨hlow, hhigh⟩ := toNat_of_isDigit hdigit
    unfold unit
    generalize c.toNat = n at hlow hhigh
    interval_cases n <;> rfl
  · rfl

/-- A number, in front of what does not go on with it. -/
theorem lexFrom_number (d : Decimal) {rest : List CodeUnit} (hrest : Delimited rest) :
    lexFrom .out (d.print.map unit ++ rest) =
      emit [.atom (.number d)] (lexFrom .out rest) := by
  obtain ⟨c, cs, hprint, hhead⟩ := Decimal.head_of_read d.read_print
  have hunits : ∀ u ∈ d.print.map unit, isNumeric u = true := by
    intro u hu
    obtain ⟨c, hc, rfl⟩ := List.mem_map.mp hu
    exact (isNumeric_unit (d.isNumberChar_print c hc)).1
  have hrun : lexer.run .out (d.print.map unit) = some (.number (d.print.map unit), []) := by
    rw [hprint, List.map_cons] at hunits ⊢
    exact Transducer.run_cons (step_number hhead)
      (run_numeric [unit c] fun u hu => hunits u (List.mem_cons_of_mem _ hu))
  rw [lexFrom_append hrun, emit_nil]
  cases rest with
  | nil => simp [lexFrom, lexEnd, numberToken_print, emit]
  | cons u rest =>
    refine lexFrom_after rest ?_
    show (if isNumeric u = true then _ else lexAfter (numberToken (d.print.map unit)) u) = _
    rw [(hrest u rfl).1, numberToken_print]
    rfl

/-! ## Values -/

theorem delimited_printItems (items : List Json) (indent : ℕ) {rest : List CodeUnit}
    (hrest : Delimited rest) : Delimited (printItems indent items ++ rest) := by
  cases items with
  | nil => exact hrest
  | cons item items => exact delimited_cons rfl rfl _

theorem delimited_printFields (fields : List (List CodeUnit × Json)) (indent : ℕ)
    {rest : List CodeUnit} (hrest : Delimited rest) :
    Delimited (printFields indent fields ++ rest) := by
  cases fields with
  | nil => exact hrest
  | cons field fields => exact delimited_cons rfl rfl _

/-- A key, with its colon. -/
theorem lexFrom_key (key rest : List CodeUnit) :
    lexFrom .out (quote key ++ (units ": " ++ rest)) =
      emit [.string key, .colon] (lexFrom .out rest) := by
  have hcolon : lexer.run .out (units ": ") = some (.out, [.colon]) := rfl
  rw [lexFrom_quote, lexFrom_out hcolon, emit_emit]
  rfl

/-- The end of an array or object. -/
theorem lexFrom_close (indent : ℕ) {c : CodeUnit} {t : Token}
    (hc : lexer.step .out c = some (.out, [t])) (rest : List CodeUnit) :
    lexFrom .out (newline indent ++ ([c] ++ rest)) = emit [t] (lexFrom .out rest) := by
  rw [lexFrom_newline]
  exact lexFrom_cons hc rest

mutual

/-- A printed value lexes to its tokens. -/
theorem lexFrom_print : ∀ (v : Json) (indent : ℕ) {rest : List CodeUnit}, Delimited rest →
    lexFrom .out (print indent v ++ rest) = emit (tokens v) (lexFrom .out rest)
  | .null, _, _, hrest => lexFrom_word rfl rfl hrest
  | .bool true, _, _, hrest => lexFrom_word rfl rfl hrest
  | .bool false, _, _, hrest => lexFrom_word rfl rfl hrest
  | .number n, _, _, hrest => lexFrom_number n hrest
  | .string s, _, rest, _ => lexFrom_quote s rest
  | .array [], _, _, _ => lexFrom_out rfl
  | .object [], _, _, _ => lexFrom_out rfl
  | .array (item :: items), indent, rest, _ => by
    have hend := delimited_newline indent ([unit ']'] ++ rest)
    have hitems := lexFrom_printItems items (indent + 2) hend
    have hitem := lexFrom_print item (indent + 2) (delimited_printItems items (indent + 2) hend)
    have hopen : lexer.step .out (unit '[') = some (.out, [.lbracket]) := rfl
    have hall := lexFrom_cons hopen (newline (indent + 2) ++ (print (indent + 2) item ++
      (printItems (indent + 2) items ++ (newline indent ++ ([unit ']'] ++ rest)))))
    rw [lexFrom_newline, hitem, hitems, lexFrom_close indent rfl, emit_emit, emit_emit,
      emit_emit] at hall
    simpa [print, tokens] using hall
  | .object ((key, value) :: fields), indent, rest, _ => by
    have hend := delimited_newline indent ([unit '}'] ++ rest)
    have hfields := lexFrom_printFields fields (indent + 2) hend
    have hvalue := lexFrom_print value (indent + 2)
      (delimited_printFields fields (indent + 2) hend)
    have hopen : lexer.step .out (unit '{') = some (.out, [.lbrace]) := rfl
    have hall := lexFrom_cons hopen (newline (indent + 2) ++ (quote key ++ (units ": " ++
      (print (indent + 2) value ++ (printFields (indent + 2) fields ++
        (newline indent ++ ([unit '}'] ++ rest)))))))
    rw [lexFrom_newline, lexFrom_key, hvalue, hfields, lexFrom_close indent rfl, emit_emit,
      emit_emit, emit_emit, emit_emit] at hall
    simpa [print, tokens] using hall

theorem lexFrom_printItems : ∀ (items : List Json) (indent : ℕ) {rest : List CodeUnit},
    Delimited rest →
    lexFrom .out (printItems indent items ++ rest) = emit (itemTokens items) (lexFrom .out rest)
  | [], _, rest, _ => by simp [printItems, itemTokens]
  | item :: items, indent, rest, hrest => by
    have hitems := lexFrom_printItems items indent hrest
    have hitem := lexFrom_print item indent (delimited_printItems items indent hrest)
    have hcomma : lexer.step .out (unit ',') = some (.out, [.comma]) := rfl
    have hall := lexFrom_cons hcomma
      (newline indent ++ (print indent item ++ (printItems indent items ++ rest)))
    rw [lexFrom_newline, hitem, hitems, emit_emit, emit_emit] at hall
    simpa [printItems, itemTokens] using hall

theorem lexFrom_printFields : ∀ (fields : List (List CodeUnit × Json)) (indent : ℕ)
    {rest : List CodeUnit}, Delimited rest →
    lexFrom .out (printFields indent fields ++ rest) =
      emit (fieldTokens fields) (lexFrom .out rest)
  | [], _, rest, _ => by simp [printFields, fieldTokens]
  | (key, value) :: fields, indent, rest, hrest => by
    have hfields := lexFrom_printFields fields indent hrest
    have hvalue := lexFrom_print value indent (delimited_printFields fields indent hrest)
    have hcomma : lexer.step .out (unit ',') = some (.out, [.comma]) := rfl
    have hall := lexFrom_cons hcomma (newline indent ++ (quote key ++ (units ": " ++
      (print indent value ++ (printFields indent fields ++ rest)))))
    rw [lexFrom_newline, lexFrom_key, hvalue, hfields, emit_emit, emit_emit, emit_emit] at hall
    simpa [printFields, fieldTokens] using hall

end

theorem lex_print (v : Json) : lex (print 0 v) = some (tokens v) := by
  have hprint := lexFrom_print v 0 (show Delimited [] from fun _ hc => by cases hc)
  rw [List.append_nil] at hprint
  unfold lex
  rw [hprint]
  simp [lexFrom, lexEnd, emit]

/-! ## Reading the tokens -/

/-- No value begins with a closing bracket: behind an opening one it is an item. -/
theorem read_itemOrEnd (v : Json) (stack : List Frame) :
    grammar.read (.itemOrEnd stack) (tokens v) =
      grammar.read (.value (.array [] :: stack)) (tokens v) := by
  cases v with
  | array items => cases items <;> rfl
  | object fields => cases fields <;> rfl
  | _ => rfl

mutual

/-- The tokens of a value are read as the value, wherever one is expected. -/
theorem read_tokens : ∀ (v : Json) (stack : List Frame),
    grammar.read (.value stack) (tokens v) = some (complete v stack)
  | .null, _ => rfl
  | .bool _, _ => rfl
  | .number _, _ => rfl
  | .string _, _ => rfl
  | .array [], _ => rfl
  | .object [], _ => rfl
  | .array (item :: items), stack => by
    have hopen : grammar.next (.value stack) .lbracket = some (.itemOrEnd stack) := rfl
    have hitem := (read_itemOrEnd item stack).trans (read_tokens item (.array [] :: stack))
    have hitems := read_itemTokens items [item] stack
    rw [tokens, List.append_assoc, List.cons_append, Acceptor.read_cons, hopen, Option.bind_some,
      Acceptor.read_append, hitem, Option.bind_some, Acceptor.read_append]
    show (grammar.read (.afterItem [item] stack) _).bind _ = _
    rw [hitems]
    rfl
  | .object ((key, value) :: fields), stack => by
    have hvalue := read_tokens value (.object [] key :: stack)
    have hfields := read_fieldTokens fields [(key, value)] stack
    rw [tokens, List.append_assoc]
    show grammar.read (.value (.object [] key :: stack))
      (tokens value ++ (fieldTokens fields ++ [.rbrace])) = _
    rw [Acceptor.read_append, hvalue, Option.bind_some, Acceptor.read_append]
    show (grammar.read (.afterField [(key, value)] stack) _).bind _ = _
    rw [hfields]
    rfl

theorem read_itemTokens : ∀ (items read : List Json) (stack : List Frame),
    grammar.read (.afterItem read stack) (itemTokens items) =
      some (.afterItem (read ++ items) stack)
  | [], read, stack => by simp [itemTokens]
  | item :: items, read, stack => by
    have hitem := read_tokens item (.array read :: stack)
    have hitems := read_itemTokens items (read ++ [item]) stack
    rw [itemTokens]
    show grammar.read (.value (.array read :: stack)) (tokens item ++ itemTokens items) = _
    rw [Acceptor.read_append, hitem, Option.bind_some]
    show grammar.read (.afterItem (read ++ [item]) stack) _ = _
    simpa using hitems

theorem read_fieldTokens : ∀ (fields read : List (List CodeUnit × Json)) (stack : List Frame),
    grammar.read (.afterField read stack) (fieldTokens fields) =
      some (.afterField (read ++ fields) stack)
  | [], read, stack => by simp [fieldTokens]
  | (key, value) :: fields, read, stack => by
    have hvalue := read_tokens value (.object read key :: stack)
    have hfields := read_fieldTokens fields (read ++ [(key, value)]) stack
    rw [fieldTokens]
    show grammar.read (.value (.object read key :: stack))
      (tokens value ++ fieldTokens fields) = _
    rw [Acceptor.read_append, hvalue, Option.bind_some]
    show grammar.read (.afterField (read ++ [(key, value)]) stack) _ = _
    simpa using hfields

end

theorem parseTokens_tokens (v : Json) : parseTokens (tokens v) = some v := by
  unfold parseTokens
  rw [show grammar.start = .value [] from rfl, read_tokens]
  rfl

/-- **Round trip.** A printed value parses as itself. -/
theorem parse_print (v : Json) : parse (print 0 v) = some v := by
  unfold parse
  rw [lex_print, Option.bind_some, parseTokens_tokens]

end Json

/-!
## JSON on one line

- `Json.printLine`: the text of a value without any white space.
- `Json.parse_printLine`: it parses as the value.
-/

namespace Json

mutual

/-- The text of a value, without white space. -/
def printLine : Json → List CodeUnit
  | .null => units "null"
  | .bool true => units "true"
  | .bool false => units "false"
  | .number n => n.print.map unit
  | .string s => quote s
  | .array [] => units "[]"
  | .array (item :: items) => unit '[' :: printLine item ++ lineItems items ++ [unit ']']
  | .object [] => units "\x7b\x7d"
  | .object ((key, value) :: fields) =>
    unit '{' :: quote key ++ unit ':' :: printLine value ++ lineFields fields ++ [unit '}']

/-- The items after the first. -/
def lineItems : List Json → List CodeUnit
  | [] => []
  | item :: items => unit ',' :: printLine item ++ lineItems items

/-- The members after the first. -/
def lineFields : List (List CodeUnit × Json) → List CodeUnit
  | [] => []
  | (key, value) :: fields =>
    unit ',' :: quote key ++ unit ':' :: printLine value ++ lineFields fields

end

/-! ### Objects -/

theorem printLine_object_begin (fields : List (List CodeUnit × Json)) :
    ∃ rest, printLine (.object fields) = unit '{' :: rest := by
  cases fields with
  | nil => exact ⟨_, rfl⟩
  | cons field fields => exact ⟨_, rfl⟩

theorem printLine_object_end (fields : List (List CodeUnit × Json)) :
    ∃ inner, printLine (.object fields) = inner ++ [unit '}'] := by
  cases fields with
  | nil => exact ⟨[unit '{'], rfl⟩
  | cons field fields => exact ⟨_, rfl⟩

/-! ### Tokens -/

theorem delimited_lineItems (items : List Json) {rest : List CodeUnit}
    (hrest : Delimited rest) : Delimited (lineItems items ++ rest) := by
  cases items with
  | nil => exact hrest
  | cons item items => exact delimited_cons rfl rfl _

theorem delimited_lineFields (fields : List (List CodeUnit × Json)) {rest : List CodeUnit}
    (hrest : Delimited rest) : Delimited (lineFields fields ++ rest) := by
  cases fields with
  | nil => exact hrest
  | cons field fields => exact delimited_cons rfl rfl _

/-- A key, with its colon. -/
theorem lexFrom_lineKey (key rest : List CodeUnit) :
    lexFrom .out (quote key ++ unit ':' :: rest) =
      emit [.string key, .colon] (lexFrom .out rest) := by
  have hcolon : lexer.step .out (unit ':') = some (.out, [.colon]) := rfl
  rw [lexFrom_quote, lexFrom_cons hcolon, emit_emit]
  rfl

mutual

/-- The line of a value lexes to its tokens. -/
theorem lexFrom_printLine : ∀ (v : Json) {rest : List CodeUnit}, Delimited rest →
    lexFrom .out (printLine v ++ rest) = emit (tokens v) (lexFrom .out rest)
  | .null, _, hrest => lexFrom_word rfl rfl hrest
  | .bool true, _, hrest => lexFrom_word rfl rfl hrest
  | .bool false, _, hrest => lexFrom_word rfl rfl hrest
  | .number n, _, hrest => lexFrom_number n hrest
  | .string s, rest, _ => lexFrom_quote s rest
  | .array [], _, _ => lexFrom_out rfl
  | .object [], _, _ => lexFrom_out rfl
  | .array (item :: items), rest, _ => by
    have hend : Delimited (unit ']' :: rest) := delimited_cons rfl rfl _
    have hitems := lexFrom_lineItems items hend
    have hitem := lexFrom_printLine item (delimited_lineItems items hend)
    have hopen : lexer.step .out (unit '[') = some (.out, [.lbracket]) := rfl
    have hclose : lexer.step .out (unit ']') = some (.out, [.rbracket]) := rfl
    have hall := lexFrom_cons hopen (printLine item ++ (lineItems items ++ unit ']' :: rest))
    rw [hitem, hitems, lexFrom_cons hclose, emit_emit, emit_emit, emit_emit] at hall
    simpa [printLine, tokens] using hall
  | .object ((key, value) :: fields), rest, _ => by
    have hend : Delimited (unit '}' :: rest) := delimited_cons rfl rfl _
    have hfields := lexFrom_lineFields fields hend
    have hvalue := lexFrom_printLine value (delimited_lineFields fields hend)
    have hopen : lexer.step .out (unit '{') = some (.out, [.lbrace]) := rfl
    have hclose : lexer.step .out (unit '}') = some (.out, [.rbrace]) := rfl
    have hall := lexFrom_cons hopen (quote key ++ unit ':' ::
      (printLine value ++ (lineFields fields ++ unit '}' :: rest)))
    rw [lexFrom_lineKey, hvalue, hfields, lexFrom_cons hclose, emit_emit, emit_emit, emit_emit,
      emit_emit] at hall
    simpa [printLine, tokens] using hall

theorem lexFrom_lineItems : ∀ (items : List Json) {rest : List CodeUnit}, Delimited rest →
    lexFrom .out (lineItems items ++ rest) = emit (itemTokens items) (lexFrom .out rest)
  | [], rest, _ => by simp [lineItems, itemTokens]
  | item :: items, rest, hrest => by
    have hitems := lexFrom_lineItems items hrest
    have hitem := lexFrom_printLine item (delimited_lineItems items hrest)
    have hcomma : lexer.step .out (unit ',') = some (.out, [.comma]) := rfl
    have hall := lexFrom_cons hcomma (printLine item ++ (lineItems items ++ rest))
    rw [hitem, hitems, emit_emit, emit_emit] at hall
    simpa [lineItems, itemTokens] using hall

theorem lexFrom_lineFields : ∀ (fields : List (List CodeUnit × Json)) {rest : List CodeUnit},
    Delimited rest →
    lexFrom .out (lineFields fields ++ rest) = emit (fieldTokens fields) (lexFrom .out rest)
  | [], rest, _ => by simp [lineFields, fieldTokens]
  | (key, value) :: fields, rest, hrest => by
    have hfields := lexFrom_lineFields fields hrest
    have hvalue := lexFrom_printLine value (delimited_lineFields fields hrest)
    have hcomma : lexer.step .out (unit ',') = some (.out, [.comma]) := rfl
    have hall := lexFrom_cons hcomma
      (quote key ++ unit ':' :: (printLine value ++ (lineFields fields ++ rest)))
    rw [lexFrom_lineKey, hvalue, hfields, emit_emit, emit_emit, emit_emit] at hall
    simpa [lineFields, fieldTokens] using hall

end

/-- **Round trip.** The line of a value parses as the value. -/
theorem parse_printLine (v : Json) : parse (printLine v) = some v := by
  have hline := lexFrom_printLine v (show Delimited [] from fun _ hc => by cases hc)
  rw [List.append_nil] at hline
  unfold parse lex
  rw [hline]
  simp [lexFrom, lexEnd, emit, parseTokens_tokens]

end Json

end FlashEdge
