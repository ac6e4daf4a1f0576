import FlashEdge.Wallet.WalletStore
import Mathlib.Data.List.Nodup

/-!
# The default wallet stays the one that was chosen

The default is kept as a name and resolved anew each time, so it should resolve to the
entry that it was set to as long as it resolves at all (`DefaultKept`). Names are looked
up up to case when there is no exact match, so a default that was set in another spelling
follows entries that come or go. `defaultKept_iff` says which.
-/

namespace FlashEdge

namespace WalletStore

/-- The entry that the default was resolved to when it was set last. -/
def chosen (h : List StoreEvent) : Option WalletEntry :=
  h.foldl (fun last e => match e with
    | .defaultSet entry => entry
    | .failed _ => last) none

/-- The default is null or resolves to the entry that was chosen, whichever files exist. -/
def DefaultKept (s : WalletStore) (h : List StoreEvent) : Prop :=
  ∀ existsSync name, s.getDefault existsSync = some name →
    ∃ entry, chosen h = some entry ∧ findEntry s.wallets name = some entry ∧
      s.getWalletPath existsSync name = .ok entry.path

/-- A name that the default's name could be resolved to. -/
def Matches (name : String) (w : WalletEntry) : Prop := toLowerCase w.name = toLowerCase name

/-- An entry that a registration adds. -/
def Registers (s : WalletStore) (name : String) (realPath address : Except String String)
    (w : WalletEntry) : Prop :=
  sanitizeName name = .ok w.name ∧ realPath = .ok w.path ∧ address = .ok w.address ∧
    ∀ v ∈ s.wallets, v.name ≠ w.name

/-- No call makes the default resolve to another entry: registering its very name, or,
while it does not resolve, another entry that matches it up to case; or removing the entry
that it is resolved to up to case while another one matches. -/
def KeepsDefault (s : WalletStore) (h : List StoreEvent) : StoreCall → Prop
  | .registerWallet name realPath address =>
    ¬ ∃ d w, s.defaultWallet = some d ∧ Registers s name realPath address w ∧
      (w.name = d ∨
        Matches d w ∧ (∀ v ∈ s.wallets, ¬ Matches d v) ∧ chosen h ≠ some w)
  | .removeWallet name =>
    ¬ ∃ d w v, s.defaultWallet = some d ∧ sanitizeName name = .ok w.name ∧ w.name ≠ d ∧
      findEntry s.wallets d = some w ∧ v ∈ s.wallets ∧ v.name ≠ w.name ∧ Matches d v
  | _ => True

/-! ## Names -/

theorem sanitizeName_ok {name safeName : String} (h : sanitizeName name = .ok safeName) :
    safeName = String.ofList (name.toList.filter isNameChar) := by
  unfold sanitizeName at h
  dsimp only at h
  split at h
  · cases h
  · exact (Except.ok.inj h).symm

/-- A name that is clean stays as it is. -/
theorem sanitizeName_clean {name safeName : String} (h : sanitizeName name = .ok safeName) :
    sanitizeName safeName = .ok safeName := by
  have hclean := sanitizeName_ok h
  have hsame : String.ofList (safeName.toList.filter isNameChar) = safeName := by
    rw [hclean, String.toList_ofList, List.filter_filter]
    simp only [Bool.and_self]
  unfold sanitizeName at h ⊢
  dsimp only at h ⊢
  rw [← hclean] at h
  rw [hsame]
  exact h

/-! ## Look-ups -/

section Lookup

variable {wallets : List WalletEntry} {name : String} {w : WalletEntry}

theorem find?_exact (hnodup : (wallets.map WalletEntry.name).Nodup) (hw : w ∈ wallets)
    (hname : w.name = name) : wallets.find? (fun v => v.name = name) = some w := by
  induction wallets with
  | nil => cases hw
  | cons v wallets ih =>
    rw [List.map_cons, List.nodup_cons] at hnodup
    rcases List.mem_cons.mp hw with rfl | hw
    · exact List.find?_cons_of_pos (decide_eq_true hname)
    · have hne : ¬ v.name = name := by
        rintro rfl
        exact hnodup.1 (List.mem_map.mpr ⟨w, hw, hname⟩)
      rw [List.find?_cons_of_neg (by simpa using hne)]
      exact ih hnodup.2 hw

theorem findEntry_exact (hnodup : (wallets.map WalletEntry.name).Nodup) (hw : w ∈ wallets)
    (hname : w.name = name) : findEntry wallets name = some w := by
  rw [findEntry, find?_exact hnodup hw hname, Option.some_or]

/-- Without an exact match the first match up to case is taken. -/
theorem findEntry_fallback (hnone : ∀ v ∈ wallets, v.name ≠ name) :
    findEntry wallets name =
      wallets.find? fun v => toLowerCase v.name = toLowerCase name := by
  have hexact : wallets.find? (fun v => v.name = name) = none := by
    rw [List.find?_eq_none]
    exact fun v hv => by simpa using hnone v hv
  rw [findEntry, hexact, Option.none_or]

theorem findEntry_mem (h : findEntry wallets name = some w) : w ∈ wallets := by
  rw [findEntry, Option.or_eq_some_iff] at h
  rcases h with h | ⟨-, h⟩
  · exact List.mem_of_find?_eq_some h
  · exact List.mem_of_find?_eq_some h

theorem findEntry_matches (h : findEntry wallets name = some w) : Matches name w := by
  rw [findEntry, Option.or_eq_some_iff] at h
  rcases h with h | ⟨-, h⟩
  · have hname : w.name = name := by simpa using List.find?_some h
    rw [Matches, hname]
  · simpa [Matches] using List.find?_some h

/-- Something that matches is found. -/
theorem findEntry_isSome (hw : w ∈ wallets) (hm : Matches name w) :
    ∃ v, findEntry wallets name = some v := by
  have hsome : (wallets.find? fun v => toLowerCase v.name = toLowerCase name).isSome :=
    List.find?_isSome.mpr ⟨w, hw, decide_eq_true hm⟩
  obtain ⟨v, hv⟩ := Option.isSome_iff_exists.mp hsome
  rw [findEntry, hv]
  cases wallets.find? fun v => v.name = name with
  | none => exact ⟨v, rfl⟩
  | some u => exact ⟨u, rfl⟩

theorem findEntry_append_exact (hnew : ∀ v ∈ wallets, v.name ≠ w.name) (hname : w.name = name) :
    findEntry (wallets ++ [w]) name = some w := by
  have hnone : wallets.find? (fun v => v.name = name) = none := by
    rw [List.find?_eq_none]
    exact fun v hv => by simpa [← hname] using hnew v hv
  have hfound : [w].find? (fun v => v.name = name) = some w :=
    List.find?_cons_of_pos (decide_eq_true hname)
  rw [findEntry, List.find?_append, hnone, Option.none_or, hfound, Option.some_or]

/-- What is found first is still found first after others are removed. -/
theorem find?_eraseP {p q : WalletEntry → Bool} (hfound : wallets.find? p = some w)
    (hkeep : q w = false) : (wallets.eraseP q).find? p = some w := by
  induction wallets with
  | nil => cases hfound
  | cons v wallets ih =>
    by_cases hp : p v = true
    · rw [List.find?_cons_of_pos hp] at hfound
      obtain rfl := Option.some.inj hfound
      rw [List.eraseP_cons_of_neg (by simp [hkeep])]
      exact List.find?_cons_of_pos hp
    · rw [List.find?_cons_of_neg hp] at hfound
      by_cases hq : q v = true
      · rw [List.eraseP_cons_of_pos hq]
        exact hfound
      · rw [List.eraseP_cons_of_neg hq, List.find?_cons_of_neg hp]
        exact ih hfound

/-- The entry of a name is gone once it is removed. -/
theorem name_ne_of_mem_eraseP (hnodup : (wallets.map WalletEntry.name).Nodup) {n : String}
    (hw : w ∈ wallets.eraseP fun v => v.name = n) : w.name ≠ n := by
  induction wallets with
  | nil => cases hw
  | cons v wallets ih =>
    rw [List.map_cons, List.nodup_cons] at hnodup
    by_cases hv : v.name = n
    · have herase : (v :: wallets).eraseP (fun v => v.name = n) = wallets :=
        List.eraseP_cons_of_pos (by simpa using hv)
      rw [herase] at hw
      rintro rfl
      exact hnodup.1 (hv ▸ List.mem_map.mpr ⟨w, hw, rfl⟩)
    · have herase : (v :: wallets).eraseP (fun v => v.name = n) =
          v :: wallets.eraseP fun v => v.name = n :=
        List.eraseP_cons_of_neg (by simpa using hv)
      rw [herase] at hw
      rcases List.mem_cons.mp hw with rfl | hw
      · exact hv
      · exact ih hnodup.2 hw

end Lookup

/-! ## The invariant -/

/-- The default is the chosen entry by its own name, or else no entry has its name and
none but the chosen one is found up to case. -/
inductive Settled (wallets : List WalletEntry) (d : String) (entry : WalletEntry) : Prop
  | exact : entry ∈ wallets → entry.name = d → Settled wallets d entry
  | fallback : (∀ v ∈ wallets, v.name ≠ d) → entry.name ≠ d →
      (∀ v, findEntry wallets d = some v → v = entry) → Settled wallets d entry

structure StoreInv (s : WalletStore) (h : List StoreEvent) : Prop where
  nodup : (s.wallets.map WalletEntry.name).Nodup
  clean : ∀ d, s.defaultWallet = some d → sanitizeName d = .ok d
  settled : ∀ d, s.defaultWallet = some d → ∃ entry, chosen h = some entry ∧
    Settled s.wallets d entry

variable {s : WalletStore} {h : List StoreEvent}

theorem findEntry_of_settled (hnodup : (s.wallets.map WalletEntry.name).Nodup) {d : String}
    {entry w : WalletEntry} (hset : Settled s.wallets d entry)
    (hw : findEntry s.wallets d = some w) : w = entry := by
  cases hset with
  | exact hmem hname =>
    rw [findEntry_exact hnodup hmem hname] at hw
    exact (Option.some.inj hw).symm
  | fallback _ _ honly => exact honly w hw

theorem getWalletPath_eq (s : WalletStore) (existsSync : String → Bool)
    {name safeName path : String}
    (hclean : sanitizeName name = .ok safeName) :
    s.getWalletPath existsSync name = .ok path ↔
      ∃ w, findEntry s.wallets safeName = some w ∧ existsSync w.path = true ∧ w.path = path := by
  rw [getWalletPath, hclean]
  dsimp only [bind, Except.bind]
  cases findEntry s.wallets safeName with
  | none => simp
  | some w =>
    by_cases hexists : existsSync w.path = true
    · simp [hexists]
    · simp [hexists]

/-- A default that is not null is clean and resolves. -/
theorem getDefault_eq_some {existsSync : String → Bool} {d : String} :
    s.getDefault existsSync = some d ↔
      s.defaultWallet = some d ∧ ∃ path, s.getWalletPath existsSync d = .ok path := by
  unfold getDefault
  cases s.defaultWallet with
  | none => simp
  | some d' =>
    dsimp only
    cases hpath : s.getWalletPath existsSync d' with
    | ok path =>
      constructor
      · intro hd
        obtain rfl := Option.some.inj hd
        exact ⟨rfl, path, hpath⟩
      · exact fun hd => hd.1
    | error message =>
      constructor
      · intro hd
        cases hd
      · rintro ⟨hd, path, hok⟩
        obtain rfl := Option.some.inj hd
        rw [hpath] at hok
        cases hok

theorem defaultKept_of_inv (hI : StoreInv s h) : DefaultKept s h := by
  intro existsSync name hname
  obtain ⟨hd, path, hpath⟩ := getDefault_eq_some.mp hname
  obtain ⟨entry, hchosen, hset⟩ := hI.settled name hd
  obtain ⟨w, hw, -, rfl⟩ := (getWalletPath_eq s existsSync (hI.clean name hd)).mp hpath
  obtain rfl := findEntry_of_settled hI.nodup hset hw
  exact ⟨w, hchosen, hw, hpath⟩

/-- A default that resolves to another entry than the chosen one is not kept. -/
theorem not_defaultKept {d : String} (hd : s.defaultWallet = some d)
    (hclean : sanitizeName d = .ok d) {w : WalletEntry} (hw : findEntry s.wallets d = some w)
    (hne : chosen h ≠ some w) : ¬ DefaultKept s h := by
  intro hkept
  have hpath := (getWalletPath_eq s (fun _ => true) hclean).mpr ⟨w, hw, rfl, rfl⟩
  obtain ⟨entry, hchosen, hentry, -⟩ :=
    hkept (fun _ => true) d (getDefault_eq_some.mpr ⟨hd, w.path, hpath⟩)
  rw [hw] at hentry
  obtain rfl := Option.some.inj hentry
  exact hne hchosen

/-! ## What the calls do -/

theorem call_register (s : WalletStore) (name : String) (realPath address : Except String String) :
    s.call (.registerWallet name realPath address) =
      match s.registerWallet name realPath address with
      | .ok (s', _) => (s', [])
      | .error message => (s, [.failed message]) :=
  rfl

theorem call_default (s : WalletStore) (existsSync : String → Bool) (name : String) :
    s.call (.setDefault existsSync name) =
      match s.setDefault existsSync name with
      | .ok s' => (s', [.defaultSet (s'.defaultWallet.bind (findEntry s.wallets))])
      | .error message => (s, [.failed message]) :=
  rfl

theorem call_remove (s : WalletStore) (name : String) :
    s.call (.removeWallet name) =
      match s.removeWallet name with
      | .ok s' => (s', [])
      | .error message => (s, [.failed message]) :=
  rfl

@[simp] theorem chosen_failed (h : List StoreEvent) (message : String) :
    chosen (h ++ [StoreEvent.failed message]) = chosen h := by
  unfold chosen
  rw [List.foldl_append]
  rfl

@[simp] theorem chosen_defaultSet (h : List StoreEvent) (entry : Option WalletEntry) :
    chosen (h ++ [StoreEvent.defaultSet entry]) = entry := by
  unfold chosen
  rw [List.foldl_append]
  rfl

theorem call_registerWallet {name : String} {realPath address : Except String String}
    {w : WalletEntry} (hreg : Registers s name realPath address w) :
    s.call (.registerWallet name realPath address) =
      ({ s with wallets := s.wallets ++ [w] }, []) := by
  obtain ⟨hname, rfl, rfl, hnew⟩ := hreg
  have hany : (s.wallets.any fun v => v.name = w.name) = false := by
    rw [List.any_eq_false]
    exact fun v hv => by simpa using hnew v hv
  rw [call_register, registerWallet, hname]
  dsimp only [bind, Except.bind]
  rw [hany]
  rfl

/-- A registration adds an entry, or fails. -/
theorem registerWallet_cases (s : WalletStore) (name : String)
    (realPath address : Except String String) :
    (∃ w, Registers s name realPath address w) ∨
      ∃ message, s.call (.registerWallet name realPath address) = (s, [.failed message]) := by
  cases hname : sanitizeName name with
  | error message =>
    refine .inr ⟨message, ?_⟩
    rw [call_register, registerWallet, hname]
    rfl
  | ok safeName =>
    cases realPath with
    | error message =>
      refine .inr ⟨message, ?_⟩
      rw [call_register, registerWallet, hname]
      rfl
    | ok path =>
      cases hany : s.wallets.any fun v => v.name = safeName with
      | true =>
        refine .inr ?_
        rw [call_register, registerWallet, hname]
        dsimp only [bind, Except.bind]
        rw [hany]
        exact ⟨_, rfl⟩
      | false =>
        cases address with
        | error message =>
          refine .inr ⟨message, ?_⟩
          rw [call_register, registerWallet, hname]
          dsimp only [bind, Except.bind]
          rw [hany]
          rfl
        | ok address =>
          rw [List.any_eq_false] at hany
          exact .inl ⟨{ name := safeName, path, address }, hname, rfl, rfl,
            fun v hv => by simpa using hany v hv⟩

/-- A default is set to an entry that is found, or the call fails. -/
theorem setDefault_cases (s : WalletStore) (existsSync : String → Bool) (name : String) :
    (∃ d w, sanitizeName d = .ok d ∧ findEntry s.wallets d = some w ∧
      s.call (.setDefault existsSync name) =
        ({ s with defaultWallet := some d }, [.defaultSet (some w)])) ∨
    ∃ message, s.call (.setDefault existsSync name) = (s, [.failed message]) := by
  cases hname : sanitizeName name with
  | error message =>
    refine .inr ⟨message, ?_⟩
    rw [call_default, setDefault, hname]
    rfl
  | ok d =>
    have hclean := sanitizeName_clean hname
    cases hpath : s.getWalletPath existsSync d with
    | error message =>
      refine .inr ⟨message, ?_⟩
      rw [call_default, setDefault, hname]
      dsimp only [bind, Except.bind]
      rw [hpath]
    | ok path =>
      obtain ⟨w, hw, -⟩ := (getWalletPath_eq s existsSync hclean).mp hpath
      refine .inl ⟨d, w, hclean, hw, ?_⟩
      rw [call_default, setDefault, hname]
      dsimp only [bind, Except.bind]
      rw [hpath]
      dsimp only [Option.bind]
      rw [hw]

theorem call_removeWallet {name : String} {w : WalletEntry}
    (hname : sanitizeName name = .ok w.name) (hw : w ∈ s.wallets) :
    s.call (.removeWallet name) =
      ({ wallets := s.wallets.eraseP fun v => v.name = w.name
         defaultWallet := if s.defaultWallet = some w.name then none else s.defaultWallet },
        []) := by
  have hany : (s.wallets.any fun v => v.name = w.name) = true :=
    List.any_eq_true.mpr ⟨w, hw, decide_eq_true rfl⟩
  rw [call_remove, removeWallet, hname]
  dsimp only [bind, Except.bind]
  rw [hany]
  rfl

/-- A removal takes an entry away, or fails. -/
theorem removeWallet_cases (s : WalletStore) (name : String) :
    (∃ w ∈ s.wallets, sanitizeName name = .ok w.name) ∨
      ∃ message, s.call (.removeWallet name) = (s, [.failed message]) := by
  cases hname : sanitizeName name with
  | error message =>
    refine .inr ⟨message, ?_⟩
    rw [call_remove, removeWallet, hname]
    rfl
  | ok safeName =>
    cases hany : s.wallets.any fun v => v.name = safeName with
    | true =>
      obtain ⟨w, hw, hsame⟩ := List.any_eq_true.mp hany
      exact .inl ⟨w, hw, congrArg Except.ok (of_decide_eq_true hsame).symm⟩
    | false =>
      refine .inr ?_
      rw [call_remove, removeWallet, hname]
      dsimp only [bind, Except.bind]
      rw [hany]
      exact ⟨_, rfl⟩

/-! ## Steps -/

/-- A call that fails changes nothing. -/
theorem StoreInv.failed (hI : StoreInv s h) (message : String) :
    StoreInv s (h ++ [StoreEvent.failed message]) where
  nodup := hI.nodup
  clean := hI.clean
  settled d hd := by
    rw [chosen_failed]
    exact hI.settled d hd

/-- An entry that is added is not found in place of the chosen one. -/
theorem StoreInv.register {name : String} {realPath address : Except String String}
    {w : WalletEntry} (hI : StoreInv s h) (hreg : Registers s name realPath address w)
    (hC : KeepsDefault s h (.registerWallet name realPath address)) :
    StoreInv { s with wallets := s.wallets ++ [w] } h where
  nodup := by
    rw [List.map_append, List.nodup_append]
    refine ⟨hI.nodup, List.nodup_singleton _, ?_⟩
    intro n hn m hm hsame
    obtain ⟨v, hv, rfl⟩ := List.mem_map.mp hn
    obtain rfl : m = w.name := by simpa using hm
    exact hreg.2.2.2 v hv hsame
  clean := hI.clean
  settled d hd := by
    obtain ⟨entry, hchosen, hset⟩ := hI.settled d hd
    refine ⟨entry, hchosen, ?_⟩
    cases hset with
    | exact hmem hname => exact .exact (List.mem_append_left _ hmem) hname
    | fallback hnone hne honly =>
      have hother : w.name ≠ d := fun hsame => hC ⟨d, w, hd, hreg, .inl hsame⟩
      have hnone' : ∀ v ∈ s.wallets ++ [w], v.name ≠ d := by
        intro v hv
        rcases List.mem_append.mp hv with hv | hv
        · exact hnone v hv
        · rwa [List.mem_singleton.mp hv]
      refine .fallback hnone' hne fun v hv => ?_
      rw [findEntry_fallback hnone', List.find?_append, ← findEntry_fallback hnone,
        Option.or_eq_some_iff] at hv
      rcases hv with hv | ⟨hnot, hv⟩
      · exact honly v hv
      · -- the new entry is the first match up to case, so it has to be the chosen one
        obtain rfl : v = w := by simpa using List.mem_of_find?_eq_some hv
        have hmatch : Matches d v := by simpa [Matches] using List.find?_some hv
        have hnomatch : ∀ u ∈ s.wallets, ¬ Matches d u := by
          intro u hu hm
          obtain ⟨x, hx⟩ := findEntry_isSome hu hm
          rw [hnot] at hx
          cases hx
        by_contra hv'
        refine hC ⟨d, v, hd, hreg, .inr ⟨hmatch, hnomatch, fun hsame => ?_⟩⟩
        rw [hchosen] at hsame
        exact hv' (Option.some.inj hsame).symm

/-- An entry that is removed leaves no other in its place. -/
theorem StoreInv.remove {name : String} {w : WalletEntry} (hI : StoreInv s h)
    (hname : sanitizeName name = .ok w.name) (hC : KeepsDefault s h (.removeWallet name)) :
    StoreInv { wallets := s.wallets.eraseP fun v => v.name = w.name
               defaultWallet := if s.defaultWallet = some w.name then none else s.defaultWallet }
      h := by
  have hsublist : (s.wallets.eraseP fun v => v.name = w.name).Sublist s.wallets :=
    List.eraseP_sublist
  have hd : ∀ d, (if s.defaultWallet = some w.name then none else s.defaultWallet) = some d →
      s.defaultWallet = some d ∧ w.name ≠ d := by
    intro d hd
    split at hd
    · cases hd
    · next hother => exact ⟨hd, fun hsame => hother (hsame ▸ hd)⟩
  refine ⟨hI.nodup.sublist (hsublist.map _), fun d hdef => hI.clean d (hd d hdef).1, ?_⟩
  intro d hdef
  obtain ⟨hdef, hother⟩ := hd d hdef
  obtain ⟨entry, hchosen, hset⟩ := hI.settled d hdef
  refine ⟨entry, hchosen, ?_⟩
  cases hset with
  | exact hmem hsame =>
    exact .exact ((List.mem_eraseP_of_neg (by simpa [hsame] using Ne.symm hother)).mpr hmem) hsame
  | fallback hnone hne honly =>
    have hnone' : ∀ v ∈ s.wallets.eraseP fun v => v.name = w.name, v.name ≠ d :=
      fun v hv => hnone v (hsublist.subset hv)
    refine .fallback hnone' hne fun v hv => ?_
    obtain ⟨u, hu⟩ := findEntry_isSome (hsublist.subset (findEntry_mem hv)) (findEntry_matches hv)
    by_cases hsame : u.name = w.name
    · -- the entry that was found is removed, and there is no other
      exact absurd ⟨d, u, v, hdef, hsame ▸ hname, hsame ▸ hother, hu,
        hsublist.subset (findEntry_mem hv),
        hsame ▸ name_ne_of_mem_eraseP hI.nodup (findEntry_mem hv), findEntry_matches hv⟩ hC
    · have hkept : findEntry (s.wallets.eraseP fun v => v.name = w.name) d = some u := by
        rw [findEntry_fallback hnone']
        rw [findEntry_fallback hnone] at hu
        exact find?_eraseP hu (by simpa using hsame)
      rw [hkept] at hv
      exact honly v (hu.trans hv)

/-- Calls that keep the default keep the invariant. -/
theorem storeInv_step {a : StoreCall} (hI : StoreInv s h) (hC : KeepsDefault s h a) :
    StoreInv (s.call a).1 (h ++ (s.call a).2) := by
  cases a with
  | registerWallet name realPath address =>
    rcases registerWallet_cases s name realPath address with ⟨w, hreg⟩ | ⟨message, hcall⟩
    · rw [call_registerWallet hreg, List.append_nil]
      exact hI.register hreg hC
    · rw [hcall]
      exact hI.failed message
  | setDefault existsSync name =>
    rcases setDefault_cases s existsSync name with ⟨d, w, hclean, hw, hcall⟩ | ⟨message, hcall⟩
    · rw [hcall]
      refine ⟨hI.nodup, fun d' hd' => ?_, fun d' hd' => ⟨w, chosen_defaultSet h _, ?_⟩⟩
      · obtain rfl := Option.some.inj hd'
        exact hclean
      · obtain rfl := Option.some.inj hd'
        by_cases hname : w.name = d
        · exact .exact (findEntry_mem hw) hname
        · refine .fallback (fun v hv hsame => ?_) hname fun v hv =>
            Option.some.inj (hv.symm.trans hw)
          rw [findEntry_exact hI.nodup hv hsame] at hw
          exact hname (Option.some.inj hw ▸ hsame)
    · rw [hcall]
      exact hI.failed message
  | clearDefault =>
    rw [show s.call .clearDefault = (s.clearDefault, []) from rfl, List.append_nil]
    exact ⟨hI.nodup, fun d hd => (by cases hd), fun d hd => (by cases hd)⟩
  | removeWallet name =>
    rcases removeWallet_cases s name with ⟨w, hw, hname⟩ | ⟨message, hcall⟩
    · rw [call_removeWallet hname hw, List.append_nil]
      exact hI.remove hname hC
    · rw [hcall]
      exact hI.failed message

/-- The others make the default resolve to another entry. -/
theorem not_defaultKept_step {a : StoreCall} (hI : StoreInv s h) (hC : ¬ KeepsDefault s h a) :
    ¬ DefaultKept (s.call a).1 (h ++ (s.call a).2) := by
  cases a with
  | setDefault existsSync name => exact absurd trivial hC
  | clearDefault => exact absurd trivial hC
  | registerWallet name realPath address =>
    rw [KeepsDefault, not_not] at hC
    obtain ⟨d, w, hd, hreg, htaken⟩ := hC
    obtain ⟨entry, hchosen, hset⟩ := hI.settled d hd
    rw [call_registerWallet hreg, List.append_nil]
    rcases htaken with hname | ⟨hmatch, hnone, hne⟩
    · -- the new entry is an exact match, the chosen one was none
      refine not_defaultKept hd (hI.clean d hd) (findEntry_append_exact hreg.2.2.2 hname)
        fun hsame => ?_
      rw [hchosen] at hsame
      obtain rfl := Option.some.inj hsame
      cases hset with
      | exact hmem _ => exact hreg.2.2.2 entry hmem rfl
      | fallback _ hne _ => exact hne hname
    · obtain ⟨u, hu⟩ := findEntry_isSome (List.mem_append_right s.wallets List.mem_cons_self) hmatch
      rcases List.mem_append.mp (findEntry_mem hu) with hmem | hmem
      · exact absurd (findEntry_matches hu) (hnone u hmem)
      · obtain rfl := List.mem_singleton.mp hmem
        exact not_defaultKept hd (hI.clean d hd) hu hne
  | removeWallet name =>
    rw [KeepsDefault, not_not] at hC
    obtain ⟨d, w, v, hd, hname, hother, hw, hv, hne, hmatch⟩ := hC
    obtain ⟨entry, hchosen, hset⟩ := hI.settled d hd
    obtain rfl := findEntry_of_settled hI.nodup hset hw
    rw [call_removeWallet hname (findEntry_mem hw), List.append_nil]
    have hleft : v ∈ s.wallets.eraseP fun u => u.name = w.name :=
      (List.mem_eraseP_of_neg (by simpa using hne)).mpr hv
    obtain ⟨u, hu⟩ := findEntry_isSome hleft hmatch
    refine not_defaultKept (s := { wallets := _, defaultWallet := _ }) ?_ (hI.clean d hd) hu
      fun hsame => ?_
    · rw [if_neg fun hsame => hother (Option.some.inj (hd.symm.trans hsame)).symm]
      exact hd
    · rw [hchosen] at hsame
      exact name_ne_of_mem_eraseP hI.nodup (findEntry_mem hu) (Option.some.inj hsame ▸ rfl)

/-- **The default wallet.** All along a run the default is null or resolves to the entry
that was chosen exactly if no call makes it resolve to another: registering its very name
while no entry has it; registering another entry that matches it up to case while none
does; or removing the entry that it is resolved to up to case while another one matches. -/
theorem defaultKept_iff (as : List StoreCall) :
    walletStore.Always DefaultKept walletStore.init [] as ↔
      walletStore.Along KeepsDefault walletStore.init [] as := by
  have hinit : StoreInv walletStore.init [] :=
    ⟨List.nodup_nil, fun d hd => (by cases hd), fun d hd => (by cases hd)⟩
  refine Machine.always_iff_along (I := StoreInv) defaultKept_of_inv ?_ ?_ hinit as
  · intro s h a s' es hI hC hs
    obtain ⟨rfl, rfl⟩ := Machine.some_pair hs
    exact storeInv_step hI hC
  · intro s h a s' es hI hC hs
    obtain ⟨rfl, rfl⟩ := Machine.some_pair hs
    exact not_defaultKept_step hI hC

/-- The default MAIN is set while only main is registered; then MAIN is. -/
theorem not_defaultKept_all : ¬ ∀ s h, walletStore.Reachable s h → DefaultKept s h := by
  intro hall
  let main : WalletEntry := { name := "main", path := "/home/u/a.json", address := "A" }
  let other : WalletEntry := { name := "MAIN", path := "/home/u/b.json", address := "B" }
  have hrun : walletStore.run
      [.registerWallet "main" (.ok main.path) (.ok main.address),
        .setDefault (fun _ => true) "MAIN",
        .registerWallet "MAIN" (.ok other.path) (.ok other.address)] =
      some ({ wallets := [main, other], defaultWallet := some "MAIN" },
        [.defaultSet (some main)]) := by
    decide +kernel
  have hfound : findEntry [main, other] "MAIN" = some other := by decide +kernel
  exact not_defaultKept rfl (by decide +kernel) hfound (by decide +kernel)
    (hall _ _ (Machine.reachable_of_run hrun))

end WalletStore

end FlashEdge
