import FlashEdge.Ai.CaseFolding
import FlashEdge.Ai.ResolvedMarkets
import FlashEdge.Theory.OrderedMap

/-!
# The aliases that a user defines (`cli/learned-aliases.ts`)

`alias lsol = long sol` stores an expansion under a word, and the interpreter expands the
first word of a command. The store is an object, so it also finds the names that every
object has, and never stores anything under `__proto__`. The file it is kept in is left out.

- `expand_eq`: a command is expanded by its first word, whatever its case and whatever else
  is stored.
- `expand_setAlias`: a new alias is expanded, and no other command changes.
- `ordinary_run_le`: at most 200 aliases are stored that have no name of every object.
-/

namespace FlashEdge

open Interpreter MarketTable

def MAX_ALIASES : ℕ := 200

def RESERVED : List (List Char) :=
  ["help", "portfolio", "positions", "balance", "wallet", "markets", "close", "open", "long",
    "short", "dryrun", "exit", "quit", "dashboard", "scan", "analyze", "risk", "monitor",
    "history", "trades", "volume", "funding", "depth", "inspect", "earn", "degen", "config",
    "status", "fees"].map String.toList

instance (t : List Char) : Decidable (IsShortcut t) :=
  inferInstanceAs (Decidable (_ ∧ _))

/-- The stored aliases: expansions under words that `setAlias` accepts. -/
structure Aliases where
  map : OrderedMap (List Char) (List Char)
  shortcut : ∀ key ∈ map.keys, IsShortcut key

namespace Aliases

def empty : Aliases := ⟨.empty, fun _ h => (by cases h)⟩

/-- `name in aliases`. -/
def isIn (aliases : Aliases) (name : List Char) : Prop :=
  name ∈ aliases.map.keys ∨ name ∈ objectPrototype

instance (aliases : Aliases) (name : List Char) : Decidable (aliases.isIn name) :=
  inferInstanceAs (Decidable (_ ∨ _))

/-- `aliases[key] = expansion`, which has no effect on the prototype. -/
def assign (aliases : Aliases) {key : List Char} (hkey : IsShortcut key) (expansion : List Char) :
    Aliases :=
  if key = "__proto__".toList then aliases
  else
    { map := aliases.map.set key expansion
      shortcut := fun _ h => (OrderedMap.mem_keys_set.mp h).elim (· ▸ hkey) (aliases.shortcut _) }

/-- `setAlias`; `none` if it returns `false`. -/
def setAlias (aliases : Aliases) (shortcut expansion : List Char) : Option Aliases :=
  let key := lowerCase shortcut
  if MAX_ALIASES ≤ aliases.map.size ∧ ¬ aliases.isIn shortcut then none
  else if hkey : IsShortcut key then
    if 50 < key.length ∨ key ∈ RESERVED ∨ 200 < expansion.length ∨
        expansion.any (fun c => c.toNat ≤ 0x1F ∨ c.toNat = 0x7F) then none
    else some (aliases.assign hkey expansion)
  else none

/-- `removeAlias`; `none` if it returns `false`. -/
def removeAlias (aliases : Aliases) (shortcut : List Char) : Option Aliases :=
  let key := lowerCase shortcut
  if aliases.isIn key then
    some
      { map := aliases.map.delete key
        shortcut := fun _ h => aliases.shortcut _ (OrderedMap.mem_keys_delete.mp h).2 }
  else none

/-- `expandLearnedAlias` with these aliases. -/
def expand (aliases : Aliases) (data : ParserData) (input : List Char) : List Char :=
  expandLearnedAlias
    { data with
      learnedAliases := aliases.map.entries
      shortcut := fun _ he => aliases.shortcut _ (List.mem_map_of_mem he) } input

/-! ## The first word -/

def firstWord (t : List Char) : List Char := t.takeWhile (· ≠ ' ')

theorem firstWord_append {word rest : List Char} (hword : ' ' ∉ word)
    (hrest : rest = [] ∨ rest.head? = some ' ') : firstWord (word ++ rest) = word := by
  have hall : ∀ c ∈ word, decide (c ≠ ' ') = true := fun c hc =>
    decide_eq_true fun heq => hword (heq ▸ hc)
  unfold firstWord
  rw [List.takeWhile_append_of_pos hall]
  rcases hrest with rfl | hrest
  · simp
  · obtain ⟨rest, rfl⟩ := List.head?_eq_some_iff.mp hrest
    simp

theorem firstWord_split (t : List Char) :
    ∃ rest, t = firstWord t ++ rest ∧ (rest = [] ∨ rest.head? = some ' ') := by
  refine ⟨t.dropWhile (· ≠ ' '), List.takeWhile_append_dropWhile.symm, ?_⟩
  cases hrest : t.dropWhile (· ≠ ' ') with
  | nil => exact .inl rfl
  | cons c rest =>
    have hhead := List.head?_dropWhile_not (fun c => decide (c ≠ ' ')) t
    rw [hrest] at hhead
    simpa using hhead

theorem firstWord_lowerCase (t : List Char) :
    firstWord (lowerCase t) = lowerCase (firstWord t) := by
  unfold firstWord lowerCase
  rw [List.takeWhile_map]
  congr 2
  funext c
  simp [blank_toLower]

/-- An alias fits exactly the commands of which it is the first word. -/
theorem fits_iff {key lower : List Char} (hkey : ' ' ∉ key) :
    (decide (lower = key) || (key ++ [' ']).isPrefixOf lower) = true ↔ key = firstWord lower := by
  rw [Bool.or_eq_true, decide_eq_true_eq, List.isPrefixOf_iff_prefix]
  constructor
  · rintro (rfl | ⟨rest, rfl⟩)
    · simpa using (firstWord_append hkey (.inl rfl)).symm
    · rw [List.append_assoc]
      exact (firstWord_append hkey (.inr rfl)).symm
  · intro heq
    obtain ⟨rest, hsplit, hrest⟩ := firstWord_split lower
    rw [← heq] at hsplit
    rcases hrest with rfl | hrest
    · exact .inl (hsplit.trans (List.append_nil _))
    · obtain ⟨rest, rfl⟩ := List.head?_eq_some_iff.mp hrest
      exact .inr ⟨rest, by rw [hsplit]; simp⟩

/-! ## What is expanded -/

variable {aliases aliases' : Aliases} {shortcut expansion : List Char}

/-- **Expansion is a look-up** of the first word: neither the order of the aliases nor
their lengths matter. -/
theorem expand_eq (aliases : Aliases) (data : ParserData) (input : List Char) :
    aliases.expand data input = ((aliases.map.get? (lowerCase (firstWord input))).map
      (· ++ input.drop (firstWord input).length)).getD input := by
  have hspace : ∀ e ∈ aliases.map.entries, ' ' ∉ e.1 := fun e he =>
    space_notMem_shortcut (aliases.shortcut _ (List.mem_map_of_mem he))
  unfold expand expandLearnedAlias
  dsimp only
  rw [← firstWord_lowerCase]
  cases hfound : (byLength aliases.map.entries).find? fun e =>
      decide (lowerCase input = e.1) || (e.1 ++ [' ']).isPrefixOf (lowerCase input) with
  | some e =>
    have hmem := (List.mem_insertionSort _).mp (List.mem_of_find?_eq_some hfound)
    have hfits := List.find?_some hfound
    have hword := (fits_iff (hspace e hmem)).mp hfits
    have hlength : e.1.length = (firstWord input).length := by
      rw [hword, firstWord_lowerCase, lowerCase, List.length_map]
    rw [← hword, OrderedMap.get?_eq_some_iff.mpr hmem, Option.map_some, Option.getD_some, ← hlength]
  | none =>
    have hnone : aliases.map.get? (firstWord (lowerCase input)) = none := by
      refine OrderedMap.get?_eq_none_iff.mpr fun hmem => ?_
      obtain ⟨e, he, hword⟩ := List.mem_map.mp hmem
      exact List.find?_eq_none.mp hfound e ((List.mem_insertionSort _).mpr he)
        ((fits_iff (hspace e he)).mpr hword)
    rw [hnone]
    rfl

theorem setAlias_some (h : aliases.setAlias shortcut expansion = some aliases') :
    (aliases.isIn shortcut ∨ aliases.map.size < MAX_ALIASES) ∧
      ∃ hkey : IsShortcut (lowerCase shortcut), aliases' = aliases.assign hkey expansion := by
  unfold setAlias at h
  dsimp only at h
  split at h
  · cases h
  next hroom =>
  split at h
  · next hkey =>
    split at h
    · cases h
    · refine ⟨?_, hkey, (Option.some.inj h).symm⟩
      by_contra hnot
      rw [not_or, not_lt] at hnot
      exact hroom ⟨hnot.2, hnot.1⟩
  · cases h

/-- **A new alias is expanded**, with whatever follows it, and no command with another
first word changes. -/
theorem expand_setAlias (data : ParserData) {rest : List Char}
    (h : aliases.setAlias shortcut expansion = some aliases')
    (hproto : lowerCase shortcut ≠ "__proto__".toList)
    (hrest : rest = [] ∨ rest.head? = some ' ') :
    aliases'.expand data (shortcut ++ rest) = expansion ++ rest ∧
      ∀ input, lowerCase (firstWord input) ≠ lowerCase shortcut →
        aliases'.expand data input = aliases.expand data input := by
  obtain ⟨-, hkey, rfl⟩ := setAlias_some h
  have hspace : ' ' ∉ shortcut := fun hmem =>
    space_notMem_shortcut hkey (List.mem_map.mpr ⟨' ', hmem, (blank_toLower ' ').mpr rfl⟩)
  have hmap : (aliases.assign hkey expansion).map =
      aliases.map.set (lowerCase shortcut) expansion := by
    rw [assign, if_neg hproto]
  constructor
  · rw [expand_eq, firstWord_append hspace hrest, hmap, OrderedMap.get?_set, if_pos rfl,
      List.drop_left]
    rfl
  · intro input hother
    rw [expand_eq, expand_eq, hmap, OrderedMap.get?_set_of_ne hother]

def crypto : ParserData where
  markets := []
  registered := []
  pools := ["Crypto.1".toList]
  market_name := by decide
  pool_name := isName_crypto
  shortcut := isShortcut_nil

theorem expand_setAlias_lsol : ∃ aliases',
    empty.setAlias "lsol".toList "long sol".toList = some aliases' ∧
      aliases'.expand crypto "lsol 2x".toList = "long sol 2x".toList := by
  have hset : (empty.setAlias "lsol".toList "long sol".toList).isSome := by decide +kernel
  obtain ⟨aliases', h⟩ := Option.isSome_iff_exists.mp hset
  have hrest : " 2x".toList = [] ∨ " 2x".toList.head? = some ' ' := .inr rfl
  exact ⟨aliases', h, (expand_setAlias crypto h (by decide) hrest).1⟩

/-! ## How many there are -/

inductive AliasCall where
  | setAlias (shortcut expansion : List Char)
  | removeAlias (shortcut : List Char)

/-- A call that returns `false` changes nothing. -/
def call (aliases : Aliases) : AliasCall → Aliases
  | .setAlias shortcut expansion => (aliases.setAlias shortcut expansion).getD aliases
  | .removeAlias shortcut => (aliases.removeAlias shortcut).getD aliases

/-- The aliases that have no name of every object, in small letters. -/
def ordinary (aliases : Aliases) : OrderedMap (List Char) (List Char) :=
  aliases.map.filter fun key _ => decide (key ∉ objectPrototype.map lowerCase)

theorem mem_ordinary {key : List Char} : key ∈ aliases.ordinary.keys ↔
    key ∈ aliases.map.keys ∧ key ∉ objectPrototype.map lowerCase := by
  simp only [ordinary, OrderedMap.mem_keys_iff, OrderedMap.get?_filter, exists_and_right,
    decide_eq_true_eq]

theorem ordinary_le (h : ∀ key ∈ aliases'.map.keys,
    key ∈ aliases.map.keys ∨ key ∈ objectPrototype.map lowerCase) :
    aliases'.ordinary.size ≤ aliases.ordinary.size := by
  refine OrderedMap.size_le_of_keys_subset fun key hkey => ?_
  obtain ⟨hmem, hnot⟩ := mem_ordinary.mp hkey
  exact mem_ordinary.mpr ⟨(h key hmem).resolve_right hnot, hnot⟩

/-- A stored word is in small letters. -/
theorem lowerCase_of_mem (hmem : shortcut ∈ aliases.map.keys) : lowerCase shortcut = shortcut := by
  refine lowerCase_of_isLower fun c hc => ?_
  have hascii : ∀ n < 128, (Char.ofNat n).isLower = true ∨ (Char.ofNat n).isDigit = true ∨
      Char.ofNat n = '_' ∨ Char.ofNat n = '-' → (Char.ofNat n).toLower = Char.ofNat n := by
    decide +kernel
  exact of_ascii (P := fun c => c.isLower = true ∨ c.isDigit = true ∨ c = '_' ∨ c = '-' →
    c.toLower = c) hascii (fun _ hlower _ _ => hlower) c ((aliases.shortcut _ hmem).2 c hc)

theorem ordinary_setAlias_le (h : aliases.setAlias shortcut expansion = some aliases')
    (hle : aliases.ordinary.size ≤ MAX_ALIASES) : aliases'.ordinary.size ≤ MAX_ALIASES := by
  obtain ⟨hroom, hkey, rfl⟩ := setAlias_some h
  have hkeys : ∀ key ∈ (aliases.assign hkey expansion).map.keys,
      key = lowerCase shortcut ∨ key ∈ aliases.map.keys := by
    intro key hmem
    unfold assign at hmem
    split at hmem
    · exact .inr hmem
    · exact OrderedMap.mem_keys_set.mp hmem
  by_cases hnew : lowerCase shortcut ∈ aliases.map.keys ∨
      lowerCase shortcut ∈ objectPrototype.map lowerCase
  · refine (ordinary_le fun key hmem => ?_).trans hle
    rcases hkeys key hmem with rfl | hold
    · exact hnew
    · exact .inl hold
  · -- the word is new, so there was room for it
    have hless : aliases.map.size < MAX_ALIASES := by
      refine hroom.resolve_left fun hin => hnew ?_
      rcases hin with hmem | hproto
      · exact .inl ((lowerCase_of_mem hmem).symm ▸ hmem)
      · exact .inr (List.mem_map_of_mem hproto)
    have hsize : (aliases.assign hkey expansion).map.size ≤ aliases.map.size + 1 := by
      unfold assign
      split
      · exact Nat.le_succ _
      · exact (OrderedMap.size_set_of_none
          (OrderedMap.get?_eq_none_iff.mpr fun hmem => hnew (.inl hmem)) expansion).le
    exact (List.length_filter_le _ _).trans (hsize.trans hless)

/-- **How many there are**: after any calls, at most 200 aliases that have no name of every
object. -/
theorem ordinary_run_le (calls : List AliasCall) :
    (calls.foldl call empty).ordinary.size ≤ MAX_ALIASES := by
  induction calls using List.reverseRecOn with
  | nil => exact Nat.zero_le _
  | append_singleton calls last ih =>
    rw [List.foldl_concat]
    generalize calls.foldl call empty = aliases at ih ⊢
    cases last with
    | setAlias shortcut expansion =>
      rw [call]
      cases h : aliases.setAlias shortcut expansion with
      | none => exact ih
      | some aliases' => exact ordinary_setAlias_le h ih
    | removeAlias shortcut =>
      rw [call, removeAlias]
      split
      · exact (ordinary_le fun key hmem => .inl (OrderedMap.mem_keys_delete.mp hmem).2).trans ih
      · exact ih

end Aliases

end FlashEdge
