import Mathlib.Data.List.Basic
import Mathlib.Data.List.Infix

/-!
# Backtracking regular expressions

The regular expressions of a scripting language: a match is not a member of a set of
words but the first success of a search that tries the alternatives in order, and it
depends on what stands around it (anchors, word boundaries). `Pattern.results` lists
the successes from a position in the order in which the search finds them, so the
match is the head of that list, and "no match" is the empty list.

- `Pattern`, `Pattern.results`: patterns, and the search from a position.
- `Pattern.exec`, `Pattern.test`, `Pattern.replace`, `Pattern.replaceAll`,
  `Pattern.matchAll`: the functions on texts, each trying the positions from left to
  right.
- `Pattern.results_split`: a success reads a piece of the text, and `Pattern.allows`
  bounds the characters it reads.
- `Pattern.replaceAll_append`: what follows a text is not changed by a replacement
  whose matches do not reach it.
-/

namespace FlashEdge

/-- What all characters of a text are is decided along the text. -/
instance decidableForallChars (t : List Char) (P : Char → Prop) [DecidablePred P] :
    Decidable (∀ c ∈ t, P c) :=
  List.decidableBAll P t

instance decidableForallChar (o : Option Char) (P : Char → Prop) [DecidablePred P] :
    Decidable (∀ c ∈ o, P c) :=
  Option.decidableForallMem o

instance decidableMemTexts (t : List Char) (ts : List (List Char)) : Decidable (t ∈ ts) :=
  List.instDecidableMemOfLawfulBEq t ts

/-- A position in a text, with what the groups have captured on the way. `before` has
the nearest character first. -/
structure Cursor where
  before : List Char
  after : List Char
  captures : List (ℕ × List Char) := []
deriving DecidableEq

/-- A repetition is one of a character class; `many` prefers to read on, `manyLazy` to
stop. -/
inductive Pattern where
  | empty
  | char (test : Char → Bool)
  | seq (p q : Pattern)
  | alt (p q : Pattern)
  | many (test : Char → Bool)
  | manyLazy (test : Char → Bool)
  | optional (p : Pattern)
  | group (n : ℕ) (p : Pattern)
  | start
  | stop
  | boundary

/-- A match in a text. -/
structure Match where
  before : List Char
  matched : List Char
  after : List Char
  captures : List (ℕ × List Char)
deriving DecidableEq

/-- What a group has captured, if it took part in the match. -/
def Match.group? (m : Match) (n : ℕ) : Option (List Char) :=
  (m.captures.find? fun capture => capture.1 = n).map Prod.snd

/-- What a group has captured; nothing if it took no part in the match. -/
def Match.group (m : Match) (n : ℕ) : List Char := (m.group? n).getD []

namespace Pattern

/-- `\w`. -/
def isWord (c : Char) : Bool := c.isAlphanum || c = '_'

/-- `\s`. -/
def isSpace (c : Char) : Bool :=
  (9 ≤ c.toNat && c.toNat ≤ 13) || c = ' ' || c.toNat = 0xA0 || c.toNat = 0x1680 ||
    (0x2000 ≤ c.toNat && c.toNat ≤ 0x200A) || c.toNat = 0x2028 || c.toNat = 0x2029 ||
    c.toNat = 0x202F || c.toNat = 0x205F || c.toNat = 0x3000 || c.toNat = 0xFEFF

/-- `.`. -/
def isDot (c : Char) : Bool :=
  !(c = '\n' || c = '\r' || c.toNat = 0x2028 || c.toNat = 0x2029)

/-- The two sides of a word boundary differ. -/
def atBoundary (s : Cursor) : Bool :=
  (s.before.head?.any isWord) != (s.after.head?.any isWord)

/-- The positions behind zero or more characters of a class, farthest first. -/
def spans (test : Char → Bool) : List Char → List Char → List (List Char × List Char)
  | before, [] => [(before, [])]
  | before, c :: rest =>
    if test c then spans test (c :: before) rest ++ [(before, c :: rest)]
    else [(before, c :: rest)]

/-- The successes from a position, in the order in which the search finds them. -/
def results : Pattern → Cursor → List Cursor
  | empty, s => [s]
  | char test, s =>
    match s.after with
    | [] => []
    | c :: rest => if test c then [{ s with before := c :: s.before, after := rest }] else []
  | seq p q, s => (results p s).flatMap (results q)
  | alt p q, s => results p s ++ results q s
  | many test, s =>
    (spans test s.before s.after).map fun r => { s with before := r.1, after := r.2 }
  | manyLazy test, s =>
    (spans test s.before s.after).reverse.map fun r => { s with before := r.1, after := r.2 }
  | optional p, s => results p s ++ [s]
  | group n p, s =>
    (results p s).map fun r =>
      { r with captures :=
          (n, (r.before.take (r.before.length - s.before.length)).reverse) :: r.captures }
  | start, s => if s.before = [] then [s] else []
  | stop, s => if s.after = [] then [s] else []
  | boundary, s => if atBoundary s then [s] else []

/-- The match of a success from a position. -/
def toMatch (s r : Cursor) : Match where
  before := s.before.reverse
  matched := (r.before.take (r.before.length - s.before.length)).reverse
  after := r.after
  captures := r.captures

/-- The first match from a position on. -/
def execFrom (p : Pattern) (before after : List Char) : Option Match :=
  match p.results { before, after } with
  | r :: _ => some (toMatch { before, after } r)
  | [] =>
    match after with
    | [] => none
    | c :: rest => execFrom p (c :: before) rest

/-- `text.match(p)`, without the flag `g`. -/
def exec (p : Pattern) (text : List Char) : Option Match := p.execFrom [] text

/-- `p.test(text)`. -/
def test (p : Pattern) (text : List Char) : Bool := (p.exec text).isSome

/-- `text.replace(p, f)`, without the flag `g`. -/
def replace (p : Pattern) (f : Match → List Char) (text : List Char) : List Char :=
  match p.exec text with
  | some m => m.before ++ f m ++ m.after
  | none => text

/-- `text.replace(p, f)` with the flag `g`, from a position on, after `skip` more
characters of the last match. No pattern here matches the empty text. -/
def replaceFrom (p : Pattern) (f : Match → List Char) :
    List Char → ℕ → List Char → List Char
  | _, _, [] => []
  | before, skip + 1, c :: rest => replaceFrom p f (c :: before) skip rest
  | before, 0, c :: rest =>
    match p.results { before, after := c :: rest } with
    | [] => c :: replaceFrom p f (c :: before) 0 rest
    | r :: _ =>
      let m := toMatch { before, after := c :: rest } r
      f m ++ replaceFrom p f (c :: before) (m.matched.length - 1) rest

/-- `text.replace(p, f)`, with the flag `g`. -/
def replaceAll (p : Pattern) (f : Match → List Char) (text : List Char) : List Char :=
  p.replaceFrom f [] 0 text

/-- `text.matchAll(p)`, from a position on, after `skip` more characters of the last
match. -/
def matchFrom (p : Pattern) : List Char → ℕ → List Char → List Match
  | _, _, [] => []
  | before, skip + 1, c :: rest => matchFrom p (c :: before) skip rest
  | before, 0, c :: rest =>
    match p.results { before, after := c :: rest } with
    | [] => matchFrom p (c :: before) 0 rest
    | r :: _ =>
      let m := toMatch { before, after := c :: rest } r
      m :: matchFrom p (c :: before) (m.matched.length - 1) rest

/-- `[...text.matchAll(p)]`. -/
def matchAll (p : Pattern) (text : List Char) : List Match := p.matchFrom [] 0 text

/-! ## Common patterns -/

/-- `p+`. -/
def many1 (test : Char → Bool) : Pattern := seq (char test) (many test)

/-- `p+?`. -/
def many1Lazy (test : Char → Bool) : Pattern := seq (char test) (manyLazy test)

def seqs : List Pattern → Pattern
  | [] => empty
  | [p] => p
  | p :: ps => seq p (seqs ps)

/-- The alternatives, in order. -/
def alts : List Pattern → Pattern
  | [] => char fun _ => false
  | [p] => p
  | p :: ps => alt p (alts ps)

/-- A text, letter by letter. -/
def literal (test : Char → Char → Bool) (w : List Char) : Pattern :=
  seqs (w.map fun c => char (test c))

/-- A text as it stands. -/
def lit (w : String) : Pattern := literal (fun c d => decide (d = c)) w.toList

/-- A text, with the flag `i`; letters outside ASCII do not occur. -/
def litIgnoreCase (w : List Char) : Pattern :=
  literal (fun c d => decide (d.toLower = c.toLower)) w

def oneOf (ws : List String) : Pattern := alts (ws.map lit)

/-- `\s+`. -/
def spaces : Pattern := many1 isSpace

/-- `\d+`. -/
def digits : Pattern := many1 Char.isDigit

/-- `\d+(?:\.\d+)?`. -/
def number : Pattern := seq digits (optional (seq (lit ".") digits))

/-- `[a-z]+`. -/
def letters : Pattern := many1 Char.isLower

/-! ## What a success reads -/

/-- The pattern may read this character. -/
def allows : Pattern → Char → Bool
  | char test, c => test c
  | seq p q, c => allows p c || allows q c
  | alt p q, c => allows p c || allows q c
  | many test, c => test c
  | manyLazy test, c => test c
  | optional p, c => allows p c
  | group _ p, c => allows p c
  | _, _ => false

/-- The pattern may read nothing. -/
def nullable : Pattern → Bool
  | char _ => false
  | seq p q => nullable p && nullable q
  | alt p q => nullable p || nullable q
  | group _ p => nullable p
  | _ => true

/-- The pattern may read this character first. -/
def firstAllows : Pattern → Char → Bool
  | char test, c => test c
  | seq p q, c => firstAllows p c || (nullable p && firstAllows q c)
  | alt p q, c => firstAllows p c || firstAllows q c
  | many test, c => test c
  | manyLazy test, c => test c
  | optional p, c => firstAllows p c
  | group _ p, c => firstAllows p c
  | _, _ => false

/-- The pattern may read this character last. -/
def lastAllows : Pattern → Char → Bool
  | char test, c => test c
  | seq p q, c => lastAllows q c || (nullable q && lastAllows p c)
  | alt p q, c => lastAllows p c || lastAllows q c
  | many test, c => test c
  | manyLazy test, c => test c
  | optional p, c => lastAllows p c
  | group _ p, c => lastAllows p c
  | _, _ => false

/-- The pattern may read these characters only. -/
def within (cs : List Char) : Pattern → Bool
  | char test => cs.any test
  | seq p q => within cs p && within cs q
  | alt p q => within cs p || within cs q
  | group _ p => within cs p
  | _ => true

/-- A success of the pattern is at the end of the text. -/
def closed : Pattern → Bool
  | stop => true
  | seq _ q => closed q
  | alt p q => closed p && closed q
  | group _ p => closed p
  | _ => false

/-- From `s` to `r` the text `w` is read. -/
structure Reads (s : Cursor) (w : List Char) (r : Cursor) : Prop where
  after : s.after = w ++ r.after
  before : r.before = w.reverse ++ s.before

theorem reads_nil (s : Cursor) : Reads s [] s := ⟨rfl, rfl⟩

theorem Reads.trans {s m r : Cursor} {v w : List Char} (h : Reads s v m) (h' : Reads m w r) :
    Reads s (v ++ w) r where
  after := by rw [h.after, h'.after, List.append_assoc]
  before := by rw [h'.before, h.before, List.reverse_append, List.append_assoc]

/-- The text stays the same. -/
theorem Reads.text {s r : Cursor} {w : List Char} (h : Reads s w r) :
    r.before.reverse ++ r.after = s.before.reverse ++ s.after := by
  rw [h.before, h.after, List.reverse_append, List.reverse_reverse, List.append_assoc]

/-- A success reads a text that the pattern may read. -/
structure Success (p : Pattern) (s : Cursor) (w : List Char) (r : Cursor) : Prop where
  reads : Reads s w r
  allowed : ∀ c ∈ w, p.allows c = true
  nullable : w = [] → p.nullable = true
  first : ∀ c v, w = c :: v → p.firstAllows c = true
  last : ∀ v c, w = v ++ [c] → p.lastAllows c = true
  within : ∀ cs, (∀ c ∈ w, c ∈ cs) → p.within cs = true
  closed : p.closed = true → r.after = []

theorem spans_reads {test : Char → Bool} {before after : List Char}
    {r : List Char × List Char} (hr : r ∈ spans test before after) :
    ∃ w, after = w ++ r.2 ∧ r.1 = w.reverse ++ before ∧ ∀ c ∈ w, test c = true := by
  induction after generalizing before with
  | nil =>
    rw [spans, List.mem_singleton] at hr
    exact ⟨[], by rw [hr]; rfl, by rw [hr]; rfl, fun c hc => by cases hc⟩
  | cons c rest ih =>
    rw [spans] at hr
    split at hr
    · next hc =>
      rcases List.mem_append.mp hr with hr | hr
      · obtain ⟨w, hafter, hbefore, hw⟩ := ih hr
        refine ⟨c :: w, by rw [hafter]; rfl, ?_, ?_⟩
        · rw [hbefore, List.reverse_cons, List.append_assoc]
          rfl
        · intro d hd
          rcases List.mem_cons.mp hd with rfl | hd
          · exact hc
          · exact hw d hd
      · rw [List.mem_singleton] at hr
        exact ⟨[], by rw [hr]; rfl, by rw [hr]; rfl, fun d hd => by cases hd⟩
    · rw [List.mem_singleton] at hr
      exact ⟨[], by rw [hr]; rfl, by rw [hr]; rfl, fun d hd => by cases hd⟩

/-- A success that reads nothing. -/
theorem success_nil {p : Pattern} {s : Cursor} (hnullable : p.nullable = true)
    (hwithin : ∀ cs, p.within cs = true) (hclosed : p.closed = true → s.after = []) :
    Success p s [] s where
  reads := reads_nil s
  allowed c hc := by cases hc
  nullable _ := hnullable
  first c v h := by cases h
  last v c h := absurd h.symm (List.append_ne_nil_of_right_ne_nil v (List.cons_ne_nil c []))
  within cs _ := hwithin cs
  closed := hclosed

/-- A repetition reads characters of its class. -/
theorem success_spans {p : Pattern} {test : Char → Bool} {s r : Cursor} {w : List Char}
    (hreads : Reads s w r) (hw : ∀ c ∈ w, test c = true)
    (hallows : ∀ c, p.allows c = test c) (hfirst : ∀ c, p.firstAllows c = test c)
    (hlast : ∀ c, p.lastAllows c = test c) (hnullable : p.nullable = true)
    (hwithin : ∀ cs, p.within cs = true) (hclosed : p.closed = false) : Success p s w r where
  reads := hreads
  allowed c hc := (hallows c).trans (hw c hc)
  nullable _ := hnullable
  first c v h := (hfirst c).trans (hw c (h ▸ List.mem_cons_self))
  last v c h := (hlast c).trans (hw c (h ▸ List.mem_append_right v (List.mem_singleton_self c)))
  within cs _ := hwithin cs
  closed h := by
    rw [hclosed] at h
    cases h

/-- **What the search finds, it has read.** -/
theorem results_success {p : Pattern} {s r : Cursor} (hr : r ∈ p.results s) :
    ∃ w, Success p s w r := by
  induction p generalizing s r with
  | empty =>
    obtain rfl := List.mem_singleton.mp hr
    exact ⟨[], success_nil rfl (fun _ => rfl) (fun h => by cases h)⟩
  | char test =>
    obtain ⟨before, after, captures⟩ := s
    cases after with
    | nil => cases hr
    | cons c rest =>
      rw [results] at hr
      dsimp only at hr
      split at hr
      · next hc =>
        obtain rfl := List.mem_singleton.mp hr
        refine ⟨[c], ⟨rfl, rfl⟩, ?_, fun h => (by cases h), ?_, ?_, ?_, fun h => (by cases h)⟩
        · intro d hd
          rw [List.mem_singleton.mp hd]
          exact hc
        · intro d v h
          rw [← (List.cons.inj h).1]
          exact hc
        · intro v d h
          have hd : d ∈ [c] := h ▸ List.mem_append_right v (List.mem_singleton_self d)
          rw [List.mem_singleton.mp hd]
          exact hc
        · intro cs hcs
          exact List.any_eq_true.mpr ⟨c, hcs c (List.mem_singleton_self c), hc⟩
      · cases hr
  | seq p q ihp ihq =>
    obtain ⟨m, hm, hr⟩ := List.mem_flatMap.mp hr
    obtain ⟨v, hv⟩ := ihp hm
    obtain ⟨w, hw⟩ := ihq hr
    refine ⟨v ++ w, hv.reads.trans hw.reads, ?_, ?_, ?_, ?_, ?_, hw.closed⟩
    · intro c hc
      refine Bool.or_eq_true_iff.mpr ?_
      exact (List.mem_append.mp hc).imp (hv.allowed c) (hw.allowed c)
    · intro h
      obtain ⟨rfl, rfl⟩ := List.append_eq_nil_iff.mp h
      exact Bool.and_eq_true_iff.mpr ⟨hv.nullable rfl, hw.nullable rfl⟩
    · intro c u h
      refine Bool.or_eq_true_iff.mpr ?_
      cases v with
      | nil => exact .inr (Bool.and_eq_true_iff.mpr ⟨hv.nullable rfl, hw.first c u h⟩)
      | cons d v =>
        obtain ⟨rfl, -⟩ := List.cons.inj h
        exact .inl (hv.first d v rfl)
    · intro u c h
      refine Bool.or_eq_true_iff.mpr ?_
      rcases List.eq_nil_or_concat w with rfl | ⟨w', d, rfl⟩
      · rw [List.append_nil] at h
        exact .inr (Bool.and_eq_true_iff.mpr ⟨hw.nullable rfl, hv.last u c h⟩)
      · rw [List.concat_eq_append, ← List.append_assoc] at h
        obtain ⟨-, h⟩ := List.append_inj' h rfl
        cases h
        exact .inl (hw.last w' c List.concat_eq_append)
    · intro cs hcs
      refine Bool.and_eq_true_iff.mpr ⟨hv.within cs ?_, hw.within cs ?_⟩
      · exact fun c hc => hcs c (List.mem_append_left w hc)
      · exact fun c hc => hcs c (List.mem_append_right v hc)
  | alt p q ihp ihq =>
    rcases List.mem_append.mp hr with hr | hr
    · obtain ⟨w, hw⟩ := ihp hr
      refine ⟨w, hw.reads, fun c hc => Bool.or_eq_true_iff.mpr (.inl (hw.allowed c hc)),
        fun h => Bool.or_eq_true_iff.mpr (.inl (hw.nullable h)),
        fun c v h => Bool.or_eq_true_iff.mpr (.inl (hw.first c v h)),
        fun v c h => Bool.or_eq_true_iff.mpr (.inl (hw.last v c h)),
        fun cs h => Bool.or_eq_true_iff.mpr (.inl (hw.within cs h)), fun h => ?_⟩
      exact hw.closed (Bool.and_eq_true_iff.mp h).1
    · obtain ⟨w, hw⟩ := ihq hr
      refine ⟨w, hw.reads, fun c hc => Bool.or_eq_true_iff.mpr (.inr (hw.allowed c hc)),
        fun h => Bool.or_eq_true_iff.mpr (.inr (hw.nullable h)),
        fun c v h => Bool.or_eq_true_iff.mpr (.inr (hw.first c v h)),
        fun v c h => Bool.or_eq_true_iff.mpr (.inr (hw.last v c h)),
        fun cs h => Bool.or_eq_true_iff.mpr (.inr (hw.within cs h)), fun h => ?_⟩
      exact hw.closed (Bool.and_eq_true_iff.mp h).2
  | many test =>
    obtain ⟨⟨before, after⟩, hspan, rfl⟩ := List.mem_map.mp hr
    obtain ⟨w, hafter, hbefore, hw⟩ := spans_reads hspan
    exact ⟨w, success_spans ⟨hafter, hbefore⟩ hw (fun _ => rfl) (fun _ => rfl) (fun _ => rfl) rfl
      (fun _ => rfl) rfl⟩
  | manyLazy test =>
    obtain ⟨⟨before, after⟩, hspan, rfl⟩ := List.mem_map.mp hr
    obtain ⟨w, hafter, hbefore, hw⟩ := spans_reads (List.mem_reverse.mp hspan)
    exact ⟨w, success_spans ⟨hafter, hbefore⟩ hw (fun _ => rfl) (fun _ => rfl) (fun _ => rfl) rfl
      (fun _ => rfl) rfl⟩
  | optional p ih =>
    rcases List.mem_append.mp hr with hr | hr
    · obtain ⟨w, hw⟩ := ih hr
      exact ⟨w, hw.reads, hw.allowed, fun _ => rfl, hw.first, hw.last, fun _ _ => rfl,
        fun h => by cases h⟩
    · obtain rfl := List.mem_singleton.mp hr
      exact ⟨[], success_nil rfl (fun _ => rfl) (fun h => by cases h)⟩
  | group n p ih =>
    obtain ⟨m, hm, rfl⟩ := List.mem_map.mp hr
    obtain ⟨w, hw⟩ := ih hm
    exact ⟨w, ⟨hw.reads.after, hw.reads.before⟩, hw.allowed, hw.nullable, hw.first, hw.last,
      hw.within, hw.closed⟩
  | start =>
    rw [results] at hr
    split at hr
    · obtain rfl := List.mem_singleton.mp hr
      exact ⟨[], success_nil rfl (fun _ => rfl) (fun h => by cases h)⟩
    · cases hr
  | stop =>
    rw [results] at hr
    split at hr
    · next hend =>
      obtain rfl := List.mem_singleton.mp hr
      exact ⟨[], success_nil rfl (fun _ => rfl) (fun _ => hend)⟩
    · cases hr
  | boundary =>
    rw [results] at hr
    split at hr
    · obtain rfl := List.mem_singleton.mp hr
      exact ⟨[], success_nil rfl (fun _ => rfl) (fun h => by cases h)⟩
    · cases hr

/-- A match is what a success has read. -/
theorem toMatch_matched {s r : Cursor} {w : List Char} (hreads : Reads s w r) :
    (toMatch s r).matched = w := by
  show (List.take _ r.before).reverse = w
  rw [hreads.before, List.length_append, Nat.add_sub_cancel_right]
  rw [List.take_left', List.reverse_reverse]
  rfl

theorem execFrom_sound {p : Pattern} {before after : List Char} {m : Match}
    (h : p.execFrom before after = some m) :
    ∃ v rest r, after = v ++ rest ∧
      r ∈ p.results { before := v.reverse ++ before, after := rest } := by
  induction after generalizing before with
  | nil =>
    rw [execFrom] at h
    split at h
    · next r _ hr => exact ⟨[], [], r, rfl, by rw [List.reverse_nil, List.nil_append, hr]; simp⟩
    · cases h
  | cons c after ih =>
    rw [execFrom] at h
    split at h
    · next r _ hr =>
      exact ⟨[], c :: after, r, rfl, by rw [List.reverse_nil, List.nil_append, hr]; simp⟩
    · obtain ⟨v, rest, r, rfl, hr⟩ := ih h
      refine ⟨c :: v, rest, r, rfl, ?_⟩
      rw [List.reverse_cons, List.append_assoc]
      exact hr

/-- A match that is anchored at both ends has read the whole text. -/
theorem success_of_whole {p : Pattern} {text : List Char} {m : Match}
    (h : (seq start p).exec text = some m) (hclosed : p.closed = true) :
    ∃ r, Success p { before := [], after := text } text r := by
  obtain ⟨v, rest, r, rfl, hr⟩ := execFrom_sound h
  obtain ⟨s, hs, hr⟩ := List.mem_flatMap.mp hr
  rw [results] at hs
  split at hs
  · next hbefore =>
    obtain rfl := List.mem_singleton.mp hs
    obtain ⟨w, hw⟩ := results_success hr
    have hv : v = [] := by simpa using hbefore
    subst hv
    have hend : rest = w ++ r.after := hw.reads.after
    rw [hw.closed hclosed, List.append_nil] at hend
    rw [List.nil_append, hend]
    rw [hend] at hw
    exact ⟨r, hw⟩
  · cases hs

/-! ## What a replacement leaves -/

/-- Where no position has a success, nothing is replaced. -/
theorem replaceFrom_of_none {p : Pattern} {f : Match → List Char} {before after : List Char}
    (h : ∀ v rest, after = v ++ rest → rest ≠ [] →
      p.results { before := v.reverse ++ before, after := rest } = []) :
    p.replaceFrom f before 0 after = after := by
  induction after generalizing before with
  | nil => rfl
  | cons c after ih =>
    have hnone := h [] (c :: after) rfl (List.cons_ne_nil c after)
    rw [List.reverse_nil, List.nil_append] at hnone
    rw [replaceFrom, hnone]
    dsimp only
    congr 1
    refine ih fun v rest hsplit hrest => ?_
    have := h (c :: v) rest (by rw [hsplit]; rfl) hrest
    rwa [List.reverse_cons, List.append_assoc] at this

/-- A pattern that cannot read across two characters, nor find anything behind them,
leaves them and what follows them alone. -/
theorem replaceAll_append {p : Pattern} (f : Match → List Char) {c d : Char}
    {rest : List Char} (cs : List Char) (hcs : ∀ e ∈ c :: d :: rest, e ∈ cs)
    (hwithin : p.within cs = false) (hlast : p.lastAllows c = false)
    (hallows : p.allows d = false) (pre : List Char) :
    ∃ pre', p.replaceAll f (pre ++ c :: d :: rest) = pre' ++ c :: d :: rest := by
  have htail : ∀ before, p.replaceFrom f before 0 (c :: d :: rest) = c :: d :: rest := by
    intro before
    refine replaceFrom_of_none fun v u hsplit _ => ?_
    refine List.eq_nil_iff_forall_not_mem.mpr fun r hr => ?_
    obtain ⟨w, hw⟩ := results_success hr
    have hread : ∀ e ∈ w, e ∈ cs := by
      intro e he
      refine hcs e ?_
      rw [hsplit, show u = w ++ r.after from hw.reads.after]
      exact List.mem_append_right v (List.mem_append_left r.after he)
    have hfit := hw.within cs hread
    rw [hwithin] at hfit
    cases hfit
  have hpre : ∀ pre before skip, skip ≤ pre.length →
      ∃ pre', p.replaceFrom f before skip (pre ++ c :: d :: rest) = pre' ++ c :: d :: rest := by
    intro pre
    induction pre with
    | nil =>
      intro before skip hskip
      obtain rfl : skip = 0 := Nat.le_zero.mp hskip
      exact ⟨[], htail before⟩
    | cons e pre ih =>
      intro before skip hskip
      cases skip with
      | succ skip =>
        obtain ⟨pre', hpre'⟩ := ih (e :: before) skip (Nat.le_of_succ_le_succ hskip)
        exact ⟨pre', hpre'⟩
      | zero =>
        rw [List.cons_append, replaceFrom]
        cases hres : p.results { before, after := e :: (pre ++ c :: d :: rest) } with
        | nil =>
          obtain ⟨pre', hpre'⟩ := ih (e :: before) 0 (Nat.zero_le _)
          exact ⟨e :: pre', by rw [hpre']; rfl⟩
        | cons r rs =>
          dsimp only
          have hmem : r ∈ p.results { before, after := e :: (pre ++ c :: d :: rest) } := by
            rw [hres]
            exact List.mem_cons_self
          obtain ⟨w, hw⟩ := results_success hmem
          rw [toMatch_matched hw.reads]
          have hafter : (e :: pre) ++ c :: d :: rest = w ++ r.after := hw.reads.after
          have hlen : w.length ≤ (e :: pre).length := by
            by_contra hlong
            -- it would read `c`, and then either stop there or read `d`
            obtain ⟨u, hu⟩ : (e :: pre) <+: w :=
              List.prefix_of_prefix_length_le ⟨_, hafter⟩ ⟨_, rfl⟩ (by omega)
            rw [← hu, List.append_assoc, List.append_cancel_left_eq] at hafter
            cases u with
            | nil =>
              rw [List.append_nil] at hu
              exact hlong (by rw [hu])
            | cons c' u =>
              obtain ⟨hc', hafter⟩ := List.cons.inj hafter
              cases u with
              | nil =>
                have hc := hw.last (e :: pre) c' hu.symm
                rw [← hc', hlast] at hc
                cases hc
              | cons d' u =>
                obtain ⟨hd', -⟩ := List.cons.inj hafter
                have hd := hw.allowed d' (by rw [← hu]; simp)
                rw [← hd', hallows] at hd
                cases hd
          obtain ⟨pre', hpre'⟩ := ih (e :: before) (w.length - 1) (by
            rw [List.length_cons] at hlen
            omega)
          exact ⟨f _ ++ pre', by rw [hpre', List.append_assoc]⟩
  exact hpre pre [] 0 (Nat.zero_le _)

end Pattern

/-!
## Anchored matches

An expression that is anchored at the beginning matches only there, and one that is anchored at
both ends matches the whole text. So what it may read first, last or at all decides that it does
not match a text.

- `exec_of_anchored`: a match is the first success from the beginning.
- `success_of_start`: what an anchored match has read.
- `exec_none_of_first`, `exec_none_of_last`: two expressions that begin or end differently do not
  match one text.
-/

namespace Pattern

/-- A pattern that finds nothing behind the beginning matches there. -/
theorem exec_of_anchored {p : Pattern} (hp : ∀ s : Cursor, s.before ≠ [] → p.results s = [])
    (text : List Char) :
    p.exec text =
      (p.results { before := [], after := text }).head?.map
        (toMatch { before := [], after := text }) := by
  have hbehind : ∀ after before, before ≠ [] → p.execFrom before after = none := by
    intro after
    induction after with
    | nil =>
      intro before hbefore
      rw [execFrom, hp { before, after := [] } hbefore]
    | cons c after ih =>
      intro before hbefore
      rw [execFrom, hp { before, after := c :: after } hbefore]
      exact ih (c :: before) (List.cons_ne_nil c before)
  unfold exec
  rw [execFrom.eq_def]
  cases p.results { before := [], after := text } with
  | cons r rs => rfl
  | nil =>
    cases text with
    | nil => rfl
    | cons c text => exact hbehind text [c] (List.cons_ne_nil c [])

/-- So does one whose search finds nothing from the beginning. -/
theorem exec_none_of_start {p : Pattern} {text : List Char}
    (h : p.results { before := [], after := text } = []) : (seq start p).exec text = none := by
  have hanchor : ∀ s : Cursor, s.before ≠ [] → (seq start p).results s = [] := by
    intro s hs
    show (if s.before = [] then [s] else []).flatMap p.results = []
    rw [if_neg hs]
    rfl
  rw [exec_of_anchored hanchor]
  show Option.map _ (List.flatMap p.results [_]).head? = none
  rw [List.flatMap_singleton, h]
  rfl

/-- A match that is anchored at the beginning has read a piece from there. -/
theorem success_of_start {p : Pattern} {text : List Char} {m : Match}
    (h : (seq start p).exec text = some m) :
    ∃ w r, Success p { before := [], after := text } w r := by
  obtain ⟨v, rest, r, rfl, hr⟩ := execFrom_sound h
  obtain ⟨s, hs, hr⟩ := List.mem_flatMap.mp hr
  rw [results] at hs
  split at hs
  · next hbefore =>
    obtain rfl := List.mem_singleton.mp hs
    obtain ⟨w, hw⟩ := results_success hr
    have hv : v = [] := by simpa using hbefore
    subst hv
    exact ⟨w, r, hw⟩
  · cases hs

/-- The character that an anchored match has read first. -/
theorem first_of_start {p : Pattern} {text : List Char} {m : Match}
    (h : (seq start p).exec text = some m) (hnullable : p.nullable = false) :
    ∃ c rest, text = c :: rest ∧ p.firstAllows c = true := by
  obtain ⟨w, r, hw⟩ := success_of_start h
  cases w with
  | nil =>
    have hnull := hw.nullable rfl
    rw [hnullable] at hnull
    cases hnull
  | cons c w => exact ⟨c, w ++ r.after, hw.reads.after, hw.first c w rfl⟩

/-- Two anchored expressions that begin differently do not match one text. -/
theorem exec_none_of_first {p q : Pattern} {text : List Char} {m : Match}
    (h : (seq start p).exec text = some m) (hp : p.nullable = false) (hq : q.nullable = false)
    (hfirst : ∀ c, p.firstAllows c = true → q.firstAllows c = false) :
    (seq start q).exec text = none := by
  obtain ⟨c, rest, rfl, hc⟩ := first_of_start h hp
  refine Option.eq_none_iff_forall_ne_some.mpr fun m' hm' => ?_
  obtain ⟨c', rest', htext, hc'⟩ := first_of_start hm' hq
  obtain ⟨rfl, -⟩ := List.cons.inj htext
  rw [hfirst c hc] at hc'
  cases hc'

/-- Nor do two that end differently. -/
theorem exec_none_of_last {p q : Pattern} {text : List Char} {m : Match}
    (h : (seq start p).exec text = some m) (hp : p.closed = true) (hnullable : p.nullable = false)
    (hq : q.closed = true) (hlast : ∀ c, p.lastAllows c = true → q.lastAllows c = false) :
    (seq start q).exec text = none := by
  obtain ⟨r, hr⟩ := success_of_whole h hp
  refine Option.eq_none_iff_forall_ne_some.mpr fun m' hm' => ?_
  obtain ⟨r', hr'⟩ := success_of_whole hm' hq
  rcases List.eq_nil_or_concat text with rfl | ⟨v, c, rfl⟩
  · have hnull := hr.nullable rfl
    rw [hnullable] at hnull
    cases hnull
  · have hc' := hr'.last v c List.concat_eq_append
    rw [hlast c (hr.last v c List.concat_eq_append)] at hc'
    cases hc'

end Pattern

end FlashEdge
