import FlashEdge.Client.FlashClient

/-!
# Who decides which programs are signed for

The whitelist is meant to hold the base programs and those of the configured
pools (`Configured`), so that nothing else is ever signed for (`Trusted`). The
sets are mutable, and one of the places that extend them adds whatever programs
the backup oracle's answer uses: `not_trusted` is a run in which an answer brings
a program of its own, and a transaction with it is signed.

`trusted_iff_oracleConfigured` shows that this is the only way: a run is trusted
throughout exactly when no answer of the backup oracle names a program that is
not configured.
-/

namespace FlashEdge

namespace FlashModule

/-- A base program, or a program of a configured pool. -/
def Configured (sdk : Sdk) (id : String) : Prop :=
  id ∈ BASE_ALLOWED_PROGRAM_IDS ∨
    ∃ poolName pc, sdk.fromIdsByName poolName = some pc ∧ id ∈ pc.programIds

/-- The whitelist in use and the sets of all clients hold configured programs
only, and so does every transaction that was signed. -/
structure Trusted (sdk : Sdk) (s : FlashModule) (h : List Event) : Prop where
  active : ∀ id ∈ s.ALLOWED_PROGRAM_IDS, Configured sdk id
  clients : ∀ c ∈ s.clients, ∀ id ∈ c.allowedPrograms, Configured sdk id
  signed : ∀ programs, .signed programs ∈ h → ∀ id ∈ programs, Configured sdk id

/-- An answer of the backup oracle names configured programs only. -/
def OracleConfigured (sdk : Sdk) : Action → Prop
  | .backupOracle _ (some ixs) => ∀ ix ∈ ixs, Configured sdk ix.programId
  | _ => True

/-! ## A program the oracle brings -/

/-- An SDK with one pool, and a parser that reads every text as a transaction of
one instruction for the program `"Evil"`. -/
def onePool : Sdk where
  fromIdsByName name := if name = "Crypto.1" then some
    { poolName := "Crypto.1", programId := "Flash", perpComposibilityProgramId := none
      fbNftRewardProgramId := none, rewardDistributionProgram := none } else none
  isTradeablePool name := name = "Crypto.1"
  getPoolForMarket _ := some "Crypto.1"
  deserialize _ := .ok { staticAccountKeys := some ["wallet", "Evil"], programIdIndexes := [1] }

/-- The oracle answers with an instruction of `"Evil"`, and a serialized
transaction for this program is handed in. -/
def evilAnswer : List Action :=
  [.construct "Crypto.1",
    .backupOracle 0 (some [{ programId := "Evil", keys := [], data := [] }]),
    .sendApiTransaction 0 "AQAAAAAAAAAA" "openPosition"]

/-- The program is on the whitelist, and the transaction is signed. -/
theorem not_trusted : ∃ s h, (flashClients onePool).Reachable s h ∧
    (∃ id ∈ s.ALLOWED_PROGRAM_IDS, ¬ Configured onePool id) ∧
    ∃ programs, .signed programs ∈ h ∧ ∃ id ∈ programs, ¬ Configured onePool id := by
  have hrun : ((flashClients onePool).run evilAnswer).map
      (fun r => (decide ("Evil" ∈ r.1.ALLOWED_PROGRAM_IDS), r.2)) =
      some (true, [.signed ["Evil"]]) := by
    decide +kernel
  obtain ⟨⟨s, h⟩, hs, hsh⟩ := Option.map_eq_some_iff.mp hrun
  obtain ⟨hallowed, hsigned⟩ := Prod.mk.inj hsh
  have hevil : ¬ Configured onePool "Evil" := by
    rintro (hbase | ⟨poolName, pc, hpc, hid⟩)
    · exact absurd hbase (by decide)
    · change (if poolName = "Crypto.1" then _ else none) = some pc at hpc
      split at hpc
      · obtain rfl := Option.some.inj hpc
        exact absurd hid (by decide)
      · cases hpc
  refine ⟨s, h, Machine.reachable_of_run hs, ⟨"Evil", of_decide_eq_true hallowed, hevil⟩,
    ["Evil"], ?_, "Evil", List.mem_singleton_self _, hevil⟩
  obtain rfl : h = [.signed ["Evil"]] := hsigned
  exact List.mem_singleton_self _

/-! ## What a set is extended with -/

theorem mem_addPrograms {set ids : List String} {id : String} :
    id ∈ addPrograms set ids ↔ id ∈ set ∨ id ∈ ids := by
  unfold addPrograms
  induction ids generalizing set with
  | nil => simp
  | cons x ids ih =>
    rw [List.foldl_cons, ih, List.mem_cons]
    split
    · next hx =>
      constructor
      · rintro (h | h)
        · exact .inl h
        · exact .inr (.inr h)
      · rintro (h | rfl | h)
        · exact .inl h
        · exact .inl hx
        · exact .inr h
    · rw [List.mem_append, List.mem_singleton, or_assoc]

variable {sdk : Sdk} {s : FlashModule} {h : List Event}

/-- A client after `allow` was a client before, with the new programs if it is
the one they are added to. -/
theorem exists_client_of_allow {i : ℕ} {ids : List String} {c : FlashClient}
    (hc : c ∈ (s.allow i ids).clients) :
    ∃ c₀ ∈ s.clients, ∀ id ∈ c.allowedPrograms, id ∈ c₀.allowedPrograms ∨ id ∈ ids := by
  obtain ⟨j, hj⟩ := List.mem_iff_getElem?.mp hc
  change (s.clients.modify i _)[j]? = some c at hj
  rw [List.getElem?_modify] at hj
  obtain ⟨c₀, hc₀, rfl⟩ := Option.map_eq_some_iff.mp hj
  refine ⟨c₀, List.mem_of_getElem? hc₀, fun id hid => ?_⟩
  split at hid
  · exact mem_addPrograms.mp hid
  · exact .inl hid

/-- The whitelist in use is the base set or the set of a client. -/
theorem mem_allowed_iff_of_clients {id : String} (hid : id ∈ s.ALLOWED_PROGRAM_IDS) :
    id ∈ BASE_ALLOWED_PROGRAM_IDS ∨ ∃ c ∈ s.clients, id ∈ c.allowedPrograms := by
  unfold ALLOWED_PROGRAM_IDS at hid
  split at hid
  · exact .inl hid
  · next i _ =>
    cases hc : s.clients[i]? with
    | none =>
      rw [hc] at hid
      exact .inl hid
    | some c =>
      rw [hc] at hid
      exact .inr ⟨c, List.mem_of_getElem? hc, hid⟩

/-- It is enough to look at the clients: the base programs are configured. -/
theorem Trusted.of_clients
    (hclients : ∀ c ∈ s.clients, ∀ id ∈ c.allowedPrograms, Configured sdk id)
    (hsigned : ∀ programs, .signed programs ∈ h → ∀ id ∈ programs, Configured sdk id) :
    Trusted sdk s h where
  active id hid := by
    rcases mem_allowed_iff_of_clients hid with hbase | ⟨c, hc, hmem⟩
    · exact .inl hbase
    · exact hclients c hc id hmem
  clients := hclients
  signed := hsigned

theorem Trusted.allow (ht : Trusted sdk s h) (i : ℕ) {ids : List String}
    (hids : ∀ id ∈ ids, Configured sdk id) (active : Option ℕ) :
    Trusted sdk { s.allow i ids with active } h := by
  refine .of_clients (fun c hc id hid => ?_) ht.signed
  obtain ⟨c₀, hc₀, hmem⟩ := exists_client_of_allow hc
  rcases hmem id hid with hold | hnew
  · exact ht.clients c₀ hc₀ id hold
  · exact hids id hnew

theorem Trusted.registerPool (ht : Trusted sdk s h) (i : ℕ) (poolName : String) :
    Trusted sdk (registerPool sdk s i poolName) h := by
  unfold FlashModule.registerPool
  split
  · exact ht
  · next pc hpc => exact ht.allow i (fun id hid => .inr ⟨poolName, pc, hpc, hid⟩) _

/-! ## What is signed -/

/-- What `validateInstructionPrograms` lets through is on the whitelist. -/
theorem mem_of_validateFrom {allowed : List String} {context : String}
    (instructions : List TransactionInstruction) {i : ℕ}
    (hok : validateFrom allowed context i instructions = .ok ()) :
    ∀ ix ∈ instructions, ix.programId ∈ allowed := by
  induction instructions generalizing i with
  | nil => exact fun _ hix => nomatch hix
  | cons ix ixs ih =>
    rw [validateFrom] at hok
    split at hok
    · next hmem =>
      intro ix' hix'
      rcases List.mem_cons.mp hix' with rfl | hrest
      · exact hmem
      · exact ih hok ix' hrest
    · cases hok

/-- What the loop over the compiled instructions lets through is on the whitelist. -/
theorem mem_of_compiledPrograms {allowed accountKeys : List String} {action : String}
    (indexes : List ℕ) {programs : List String}
    (hok : compiledPrograms allowed accountKeys action indexes = .ok programs) :
    ∀ id ∈ programs, id ∈ allowed := by
  induction indexes generalizing programs with
  | nil =>
    obtain rfl := Except.ok.inj hok
    exact fun _ hid => nomatch hid
  | cons index rest ih =>
    rw [compiledPrograms] at hok
    split at hok
    · next progKey _ =>
      split at hok
      · next hallowed =>
        cases hrest : compiledPrograms allowed accountKeys action rest with
        | error e =>
          rw [hrest] at hok
          cases hok
        | ok programs' =>
          rw [hrest] at hok
          obtain rfl := Except.ok.inj hok
          intro id hid
          rcases List.mem_cons.mp hid with rfl | hid
          · exact hallowed.2
          · exact ih hrest id hid
      · cases hok
    · cases hok

theorem mem_of_validateTransactionBeforeSign {txBase64 action : String} {programs : List String}
    (hok : validateTransactionBeforeSign sdk s txBase64 action = .ok programs) :
    ∀ id ∈ programs, id ∈ s.ALLOWED_PROGRAM_IDS := by
  unfold validateTransactionBeforeSign at hok
  split at hok
  · cases hok
  · split at hok
    · cases hok
    · split at hok
      · cases hok
      · split at hok
        · cases hok
        · split at hok
          · cases hok
          · split at hok
            · cases hok
            · exact mem_of_compiledPrograms _ hok

/-- What `sendTx` signs carries the compute budget and whitelisted programs. -/
theorem mem_of_signed_sendTx {instructions : List TransactionInstruction} {cuLimit cuPrice : ℕ}
    {programs : List String} (hsigned : .signed programs ∈ s.sendTx instructions cuLimit cuPrice) :
    ∀ id ∈ programs, id = COMPUTE_BUDGET_PROGRAM ∨ id ∈ s.ALLOWED_PROGRAM_IDS := by
  unfold sendTx at hsigned
  split at hsigned
  · rw [List.mem_singleton] at hsigned
    cases hsigned
  · next hok =>
    rw [List.mem_singleton] at hsigned
    obtain rfl := Event.signed.inj hsigned
    intro id hid
    obtain ⟨ix, hix, rfl⟩ := List.mem_map.mp hid
    rcases programId_buildOrderedIxs hix with hbudget | hmem
    · exact .inl hbudget
    · exact .inr (mem_of_validateFrom instructions hok ix hmem)

theorem mem_of_signed_sendApiTransaction {txBase64 action : String} {programs : List String}
    (hsigned : .signed programs ∈ sendApiTransaction sdk s txBase64 action) :
    ∀ id ∈ programs, id ∈ s.ALLOWED_PROGRAM_IDS := by
  unfold sendApiTransaction at hsigned
  split at hsigned
  · rw [List.mem_singleton] at hsigned
    cases hsigned
  · next hok =>
    rw [List.mem_singleton] at hsigned
    obtain rfl := Event.signed.inj hsigned
    exact mem_of_validateTransactionBeforeSign hok

/-- Signing whitelisted programs keeps a trusted history trusted. -/
theorem Trusted.signing (ht : Trusted sdk s h) {es : List Event}
    (hes : ∀ programs, .signed programs ∈ es →
      ∀ id ∈ programs, id = COMPUTE_BUDGET_PROGRAM ∨ id ∈ s.ALLOWED_PROGRAM_IDS) :
    Trusted sdk s (h ++ es) := by
  refine .of_clients ht.clients fun programs hsigned id hid => ?_
  rcases List.mem_append.mp hsigned with hold | hnew
  · exact ht.signed programs hold id hid
  · rcases hes programs hnew id hid with rfl | hallowed
    · exact .inl (by decide)
    · exact ht.active id hallowed

/-! ## Every step -/

theorem trusted_quiet (ht : Trusted sdk s h) : Trusted sdk s (h ++ []) := by
  rwa [List.append_nil]

theorem Trusted.construct (ht : Trusted sdk s h) (defaultPool : String) :
    Trusted sdk (construct sdk s defaultPool) h := by
  unfold FlashModule.construct
  split
  · exact ht
  · next pc hpc =>
    refine .of_clients (fun c hc id hid => ?_) ht.signed
    rcases List.mem_append.mp hc with hold | hnew
    · exact ht.clients c hold id hid
    · rw [List.mem_singleton] at hnew
      subst hnew
      rcases mem_addPrograms.mp hid with hbase | hpool
      · exact .inl hbase
      · exact .inr ⟨defaultPool, pc, hpc, hpool⟩

/-- A step whose oracle answer, if it has one, is configured keeps the trust. -/
theorem trusted_step {s' : FlashModule} {a : Action} {es : List Event} (ht : Trusted sdk s h)
    (ha : OracleConfigured sdk a) (hs : step sdk s a = some (s', es)) :
    Trusted sdk s' (h ++ es) := by
  cases a with
  | construct defaultPool =>
    obtain ⟨rfl, rfl⟩ := Machine.some_pair hs
    exact trusted_quiet (ht.construct defaultPool)
  | getPoolConfigForMarket i market =>
    obtain ⟨c, -, hpair⟩ := Option.map_eq_some_iff.mp hs
    obtain ⟨rfl, rfl⟩ := Prod.mk.inj hpair
    refine trusted_quiet ?_
    unfold getPoolConfigForMarket
    split
    · exact ht
    · split_ifs
      · exact ht
      · exact ht.registerPool i _
      · exact ht
  | resolvePoolConfig i poolName =>
    obtain ⟨c, -, hpair⟩ := Option.map_eq_some_iff.mp hs
    obtain ⟨rfl, rfl⟩ := Prod.mk.inj hpair
    refine trusted_quiet ?_
    unfold resolvePoolConfig
    split
    · exact ht
    · split_ifs
      · exact ht
      · exact ht
      · exact ht
      · exact ht.registerPool i _
  | backupOracle i answer =>
    obtain ⟨c, -, hpair⟩ := Option.map_eq_some_iff.mp hs
    obtain ⟨rfl, rfl⟩ := Prod.mk.inj hpair
    refine trusted_quiet ?_
    cases answer with
    | none => exact ht
    | some ixs =>
      refine ht.allow i (fun id hid => ?_) s.active
      obtain ⟨ix, hix, rfl⟩ := List.mem_map.mp hid
      exact ha ix hix
  | sendTx i instructions cuLimit cuPrice =>
    obtain ⟨c, -, hpair⟩ := Option.map_eq_some_iff.mp hs
    obtain ⟨rfl, rfl⟩ := Prod.mk.inj hpair
    exact ht.signing fun programs hsigned => mem_of_signed_sendTx hsigned
  | sendApiTransaction i txBase64 action =>
    obtain ⟨c, -, hpair⟩ := Option.map_eq_some_iff.mp hs
    obtain ⟨rfl, rfl⟩ := Prod.mk.inj hpair
    exact ht.signing fun programs hsigned id hid =>
      .inr (mem_of_signed_sendApiTransaction hsigned id hid)

/-- After an answer that is not configured, the set of the client that asked is
not. -/
theorem not_trusted_step {s' : FlashModule} {a : Action} {es : List Event}
    (ha : ¬ OracleConfigured sdk a) (hs : step sdk s a = some (s', es)) :
    ¬ Trusted sdk s' (h ++ es) := by
  cases a with
  | backupOracle i answer =>
    cases answer with
    | none => exact absurd trivial ha
    | some ixs =>
      intro ht
      obtain ⟨c, hc, hpair⟩ := Option.map_eq_some_iff.mp hs
      obtain ⟨rfl, -⟩ := Prod.mk.inj hpair
      refine ha fun ix hix => ?_
      -- the client's new set holds the program of every instruction
      let ids := ixs.map TransactionInstruction.programId
      have hclient : { c with allowedPrograms := addPrograms c.allowedPrograms ids } ∈
          (s.allow i ids).clients := by
        refine List.mem_of_getElem? (i := i) ?_
        show (s.clients.modify i _)[i]? = _
        rw [List.getElem?_modify, hc]
        simp
      exact ht.clients _ hclient _ (mem_addPrograms.mpr (.inr (List.mem_map_of_mem hix)))
  | construct defaultPool => exact absurd trivial ha
  | getPoolConfigForMarket i market => exact absurd trivial ha
  | resolvePoolConfig i poolName => exact absurd trivial ha
  | sendTx i instructions cuLimit cuPrice => exact absurd trivial ha
  | sendApiTransaction i txBase64 action => exact absurd trivial ha

/-- **When the whitelist can be trusted.** Over every run of constructions, pool
initialisations, oracle answers and sends: the whitelists hold base programs and
programs of configured pools only, and nothing else is ever signed for, exactly
when every backup-oracle answer names such programs only. -/
theorem trusted_iff_oracleConfigured (sdk : Sdk) (as : List Action) :
    (flashClients sdk).Always (Trusted sdk) (flashClients sdk).init [] as ↔
      (flashClients sdk).Along (fun _ _ a => OracleConfigured sdk a)
        (flashClients sdk).init [] as := by
  refine Machine.always_iff_along (I := Trusted sdk) (fun ht => ht) ?_ ?_ ?_ as
  · exact fun ht ha hs => trusted_step ht ha hs
  · exact fun _ ha hs => not_trusted_step ha hs
  · exact .of_clients (fun _ hc => nomatch hc) fun _ hsigned => nomatch hsigned

end FlashModule

end FlashEdge
