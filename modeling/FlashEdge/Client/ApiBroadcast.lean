import Mathlib.Data.Multiset.AddSub
import FlashEdge.Network.EndpointIndex

/-!
# The broadcast of a transaction built by the API (`client/flash-client.ts`)

`sendApiTransaction` signs and then sends in parallel: to the backups by requests of their own,
which nobody awaits, and through the client's connection, which it awaits. The connection is
to the active endpoint, since the manager's callback replaces it on every failover; the
backups are counted off from the second endpoint of the list, wherever the active one is.

Left out is what follows the broadcast: the polling for a confirmation, which sends again
through the client's connection only.

- `sendApiTransaction`: what is sent, and the signature or the error.
- `CoversAll`: every registered endpoint is sent the transaction once.
- `coversAll_iff`: that is so exactly when the active endpoint is the first of the list.
-/

namespace FlashEdge

open RpcManager

namespace ApiBroadcast

/-- Where a copy of the transaction goes. -/
inductive Channel where
  | primary
  | backup
deriving DecidableEq, Repr

/-- One request that sends the transaction. -/
structure Send where
  channel : Channel
  url : String
  transaction : String
  skipPreflight : Bool := true
  maxRetries : ℕ
deriving DecidableEq, Repr

structure ApiExecutionError where
  message : String
  action : String
  errorCode : String
deriving DecidableEq, Repr

/-- `conn.sendRawTransaction`. -/
def primarySend (conn signedBytes : String) : Send :=
  { channel := .primary, url := conn, transaction := signedBytes, maxRetries := 3 }

/-- The raw request to a backup. -/
def backupSend (signedBytes : String) (ep : RpcEndpoint) : Send :=
  { channel := .backup, url := ep.url, transaction := signedBytes, maxRetries := 1 }

/-- One round: the backups, if there is more than one endpoint, and the primary connection. -/
def broadcastRound (conn : String) (rpcMgr : Option EndpointTable) (signedBytes : String) :
    List Send :=
  match rpcMgr with
  | some rpcMgr =>
    if 1 < rpcMgr.endpoints.length then
      -- `for (let i = 1; i < endpoints.length; i++)`
      (rpcMgr.endpoints.drop 1).map (backupSend signedBytes) ++ [primarySend conn signedBytes]
    else [primarySend conn signedBytes]
  | none => [primarySend conn signedBytes]

/-- What is sent, and the signature that is awaited or the error. `signing` is what signing
the transaction ends in, `sent` what the primary connection answers. -/
def sendApiTransaction (intact : Bool) (signing : Except String String) (conn : String)
    (rpcMgr : Option EndpointTable) (sent : Except String String) :
    List Send × Except ApiExecutionError String :=
  if intact then
    match signing with
    | .ok signedBytes =>
      (broadcastRound conn rpcMgr signedBytes,
        match sent with
        | .ok signatureStr => .ok signatureStr
        | .error message => .error
            { message := "Transaction broadcast failed: " ++ message
              action := "broadcastTransaction"
              errorCode := "TX_BROADCAST_FAILED" })
    | .error message =>
      ([], .error
        { message := "Transaction signing failed: " ++ message
          action := "signTransaction"
          errorCode := "TX_SIGN_FAILED" })
  else
    ([], .error
      { message := "Wallet keypair is invalid or disconnected. " ++
          "Reconnect your wallet before signing."
        action := "signTransaction"
        errorCode := "TX_SIGN_FAILED" })

/-- The URLs that a channel is used for. -/
def urlsOf (channel : Channel) (sends : List Send) : List String :=
  (sends.filter fun s => decide (s.channel = channel)).map Send.url

/-- Every registered endpoint is sent the transaction once: the active one through the primary
connection, each of the others by a request of its own. -/
structure CoversAll (t : EndpointTable) (active : RpcEndpoint) (signedBytes : String)
    (sends : List Send) : Prop where
  signed : ∀ s ∈ sends, s.transaction = signedBytes
  primary : urlsOf .primary sends = [active.url]
  backups : (urlsOf .backup sends).Perm ((t.endpoints.eraseIdx t.activeIndex).map RpcEndpoint.url)

/-! ## The URLs of a round -/

theorem mem_broadcastRound {conn signedBytes : String} {rpcMgr : Option EndpointTable} {s : Send}
    (hs : s ∈ broadcastRound conn rpcMgr signedBytes) : s.transaction = signedBytes := by
  have hprimary : ∀ s ∈ [primarySend conn signedBytes], s.transaction = signedBytes := by
    intro s hs
    rw [List.mem_singleton.mp hs]
    rfl
  unfold broadcastRound at hs
  split at hs
  · split at hs
    · rcases List.mem_append.mp hs with hbackup | hs
      · obtain ⟨ep, -, rfl⟩ := List.mem_map.mp hbackup
        rfl
      · exact hprimary s hs
    · exact hprimary s hs
  · exact hprimary s hs

theorem urlsOf_backups (channel : Channel) (signedBytes : String) (endpoints : List RpcEndpoint) :
    urlsOf channel (endpoints.map (backupSend signedBytes)) =
      if channel = .backup then endpoints.map RpcEndpoint.url else [] := by
  unfold urlsOf
  induction endpoints with
  | nil => cases channel <;> rfl
  | cons ep endpoints ih =>
    cases channel with
    | primary => exact ih
    | backup => exact congrArg (ep.url :: ·) ih

theorem urlsOf_append (channel : Channel) (sends sends' : List Send) :
    urlsOf channel (sends ++ sends') = urlsOf channel sends ++ urlsOf channel sends' := by
  unfold urlsOf
  rw [List.filter_append, List.map_append]

variable {t : EndpointTable} (conn signedBytes : String)

theorem urlsOf_primary (rpcMgr : Option EndpointTable) :
    urlsOf .primary (broadcastRound conn rpcMgr signedBytes) = [conn] := by
  unfold broadcastRound
  split
  · split
    · rw [urlsOf_append, urlsOf_backups]
      rfl
    · rfl
  · rfl

/-- The backups are all endpoints but the first. -/
theorem urlsOf_backup (t : EndpointTable) :
    urlsOf .backup (broadcastRound conn (some t) signedBytes) =
      (t.endpoints.drop 1).map RpcEndpoint.url := by
  unfold broadcastRound
  dsimp only
  split
  · rw [urlsOf_append, urlsOf_backups]
    exact List.append_nil _
  · next hfew =>
    rw [List.drop_eq_nil_of_le (not_lt.mp hfew)]
    rfl

/-! ## Two ways of leaving one out -/

/-- Without its first element and without another one, a list is the same up to order exactly
when the two are equal. -/
theorem drop_perm_eraseIdx_iff {α : Type*} {l : List α} {i : ℕ} {x : α} (hx : l[i]? = some x) :
    (l.drop 1).Perm (l.eraseIdx i) ↔ l.head? = some x := by
  obtain ⟨hi, hxi⟩ := List.getElem?_eq_some_iff.mp hx
  cases l with
  | nil => exact absurd hi (Nat.not_lt_zero _)
  | cons y l =>
    have hall : ((y :: l).Perm (x :: (y :: l).eraseIdx i)) := by
      rw [← hxi]
      exact (List.getElem_cons_eraseIdx_perm hi).symm
    rw [List.head?_cons, Option.some_inj]
    constructor
    · intro hrest
      have hsame : (y ::ₘ (l : Multiset α)) = x ::ₘ (l : Multiset α) :=
        Multiset.coe_eq_coe.mpr (hall.trans ((List.perm_cons x).mpr hrest.symm))
      exact (Multiset.cons_inj_left _).mp hsame
    · rintro rfl
      exact (List.perm_cons y).mp hall

/-- **Who is sent the transaction.** For every endpoint list and every valid active index, the
broadcast sends the transaction to every endpoint exactly once exactly when the primary
connection is to the active endpoint, and that has the URL of the first of the list. -/
theorem coversAll_iff {active : RpcEndpoint} (hactive : t.activeEndpoint = some active)
    (sent : Except String String) :
    CoversAll t active signedBytes
        (sendApiTransaction true (.ok signedBytes) conn (some t) sent).1 ↔
      conn = active.url ∧ t.endpoints.head?.map RpcEndpoint.url = some active.url := by
  have hround : (sendApiTransaction true (.ok signedBytes) conn (some t) sent).1 =
      broadcastRound conn (some t) signedBytes := rfl
  have hactive' : (t.endpoints.map RpcEndpoint.url)[t.activeIndex]? = some active.url := by
    rw [List.getElem?_map]
    exact congrArg (Option.map RpcEndpoint.url) hactive
  have hothers := drop_perm_eraseIdx_iff hactive'
  rw [← List.map_drop, List.eraseIdx_map, List.head?_map] at hothers
  rw [hround, ← hothers]
  constructor
  · rintro ⟨-, hprimary, hbackups⟩
    rw [urlsOf_primary] at hprimary
    rw [urlsOf_backup] at hbackups
    exact ⟨List.singleton_inj.mp hprimary, hbackups⟩
  · rintro ⟨hconn, hbackups⟩
    refine ⟨fun s hs => mem_broadcastRound hs, ?_, ?_⟩
    · rw [urlsOf_primary, hconn]
    · rw [urlsOf_backup]
      exact hbackups

/-- Two endpoints, the second of them active. -/
def switched : EndpointTable :=
  (EndpointTable.switchTo (fun _ => true)
    { endpoints := [⟨"https://a", "A"⟩, ⟨"https://b", "B"⟩]
      connection := "https://a"
      failureHistory := .empty } "https://b").1

/-- The active endpoint is sent the transaction twice, the other one not at all. -/
theorem active_sent_twice :
    switched.activeEndpoint = some ⟨"https://b", "B"⟩ ∧
      (sendApiTransaction true (.ok "tx") switched.connection (some switched) (.ok "sig")).1.map
        Send.url = ["https://b", "https://b"] ∧
      ¬ CoversAll switched ⟨"https://b", "B"⟩ "tx"
        (sendApiTransaction true (.ok "tx") switched.connection (some switched) (.ok "sig")).1 := by
  refine ⟨by decide +kernel, by decide +kernel, fun h => ?_⟩
  have hbackups : ["https://b"].Perm ["https://a"] := h.backups
  revert hbackups
  decide

theorem coversAll_iff_switched :
    CoversAll switched ⟨"https://b", "B"⟩ "tx"
        (sendApiTransaction true (.ok "tx") "https://b" (some switched) (.ok "sig")).1 ↔
      "https://b" = "https://b" ∧
        switched.endpoints.head?.map RpcEndpoint.url = some "https://b" := by
  have hactive : switched.activeEndpoint = some ⟨"https://b", "B"⟩ := by decide +kernel
  exact coversAll_iff "https://b" "tx" hactive (.ok "sig")

end ApiBroadcast

end FlashEdge
