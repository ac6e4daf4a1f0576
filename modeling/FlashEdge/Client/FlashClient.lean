import FlashEdge.Solana
import FlashEdge.Theory.Machine

/-!
# The live client's program whitelist (`client/flash-client.ts`)

Every `FlashClient` owns a set of allowed programs, and the module keeps a
reference to the set of one of them: the two validations before signing look
programs up there. The sets grow when a client is constructed, when it meets
another pool, and when the backup oracle answers.

The SDK's pool configurations and its parser of serialized transactions are
parameters (`Sdk`), and so is the configuration that maps markets to pools.
Validating and signing is one step: between the two the code only waits for
blockhashes and lookup tables.
-/

namespace FlashEdge

/-- The programs of a pool in the SDK's configuration. -/
structure PoolConfig where
  poolName : String
  programId : String
  perpComposibilityProgramId : Option String
  fbNftRewardProgramId : Option String
  rewardDistributionProgram : Option String
deriving DecidableEq, Repr

/-- A deserialized transaction: its static account keys, if it has any, and the
program index of each instruction. -/
structure CompiledTransaction where
  staticAccountKeys : Option (List String)
  programIdIndexes : List ℕ
deriving DecidableEq, Repr

/-- What the client uses of the SDK and of its configuration. -/
structure Sdk where
  fromIdsByName : String → Option PoolConfig
  isTradeablePool : String → Bool
  getPoolForMarket : String → Option String
  deserialize : String → Except String CompiledTransaction

/-! ## The base set -/

def BASE_ALLOWED_PROGRAM_IDS : List String :=
  ["11111111111111111111111111111111",
    "TokenkegQfeZyiNwAJbNbGKPFXCWuBvf9Ss623VQ5DA",
    "TokenzQdBNbLqP5VEhdkAS6EPFLC1PHnBqCXEpPxuEb",
    "ATokenGPvbdGVxr1b2hvZbsiqW5xWH25efTNsLJA8knL",
    COMPUTE_BUDGET_PROGRAM,
    "SysvarRent111111111111111111111111111111111",
    "SysvarC1ock11111111111111111111111111111111",
    "Sysvar1nstructions1111111111111111111111111",
    "MemoSq4gqABAXKb96qnH8TysNcWxMyWCqXgDLGmfcHr",
    "Ce6TQqeHC9p8KetsN6JsjHK7UTZk7nasjjnr7XxXp18C",
    ED25519_PROGRAM,
    "KeyspM2ssCJbqUhQ4k7sveSiY4WjnYsrXkC8oDbwde5",
    "FTv2RxXarPfNta45HTTMVaGvjzsGg27FXJ3hEKWBhrzV",
    "FMTgsEDaPPfJi1PKD67McLTC5n833T4irbBP53LLxtvj",
    "DELeGGvXpWV2fqJUhqcF5ZSYMS4JTLjteaAMARRSaeSh"]

/-- The program ids a pool adds to a whitelist, in the order of the code. -/
def PoolConfig.programIds (pc : PoolConfig) : List String :=
  pc.programId :: pc.perpComposibilityProgramId.toList ++ pc.fbNftRewardProgramId.toList ++
    pc.rewardDistributionProgram.toList

/-- A client: its default pool and its set of allowed programs. -/
structure FlashClient where
  poolConfig : PoolConfig
  allowedPrograms : List String
deriving DecidableEq, Repr

/-- The module: the clients constructed so far, and the one whose set
`ALLOWED_PROGRAM_IDS` refers to (the base set before the first). -/
structure FlashModule where
  clients : List FlashClient := []
  active : Option ℕ := none
deriving DecidableEq, Repr

namespace FlashModule

/-- `set.add(id)` for each of the ids. -/
def addPrograms (set ids : List String) : List String :=
  ids.foldl (fun set id => if id ∈ set then set else set ++ [id]) set

/-- `ALLOWED_PROGRAM_IDS`. -/
def ALLOWED_PROGRAM_IDS (s : FlashModule) : List String :=
  match s.active with
  | none => BASE_ALLOWED_PROGRAM_IDS
  | some i => (s.clients[i]?.map FlashClient.allowedPrograms).getD BASE_ALLOWED_PROGRAM_IDS

/-- Add programs to the set of one client. -/
def allow (s : FlashModule) (i : ℕ) (ids : List String) : FlashModule :=
  { s with
    clients := s.clients.modify i fun c =>
      { c with allowedPrograms := addPrograms c.allowedPrograms ids } }

/-! ## Where the sets grow -/

/-- The constructor. -/
def construct (sdk : Sdk) (s : FlashModule) (defaultPool : String) : FlashModule :=
  match sdk.fromIdsByName defaultPool with
  -- the SDK throws for an unknown pool, and no client exists
  | none => s
  | some poolConfig =>
    let instanceAllowed := addPrograms BASE_ALLOWED_PROGRAM_IDS poolConfig.programIds
    -- the module-wide reference is repointed to the set of the new client
    { clients := s.clients ++ [{ poolConfig, allowedPrograms := instanceAllowed }]
      active := some s.clients.length }

/-- Register a pool's programs with a client and make its set the active one. -/
def registerPool (sdk : Sdk) (s : FlashModule) (i : ℕ) (poolName : String) : FlashModule :=
  match sdk.fromIdsByName poolName with
  | none => s
  | some pc => { s.allow i pc.programIds with active := some i }

def getPoolConfigForMarket (sdk : Sdk) (s : FlashModule) (i : ℕ) (client : FlashClient)
    (market : String) : FlashModule :=
  match sdk.getPoolForMarket market with
  | none => s
  | some poolName =>
    if !sdk.isTradeablePool poolName then s
    else if poolName ≠ client.poolConfig.poolName then registerPool sdk s i poolName
    else s

def resolvePoolConfig (sdk : Sdk) (s : FlashModule) (i : ℕ) (client : FlashClient)
    (poolName : Option String) : FlashModule :=
  match poolName with
  | none => s
  | some poolName =>
    if poolName = "" then s
    else if poolName = client.poolConfig.poolName then s
    else if !sdk.isTradeablePool poolName then s
    else registerPool sdk s i poolName

/-- The backup oracle has answered (or the request has failed). -/
def fetchBackupOracleIxs (s : FlashModule) (i : ℕ)
    (answer : Option (List TransactionInstruction)) : FlashModule :=
  match answer with
  | none => s
  -- the programs of the answer are allowed unchecked
  | some ixs => s.allow i (ixs.map TransactionInstruction.programId)

/-! ## The validations before signing -/

def onlyApproved : String :=
  "Only approved Flash Trade and Solana system programs are allowed."

/-- The loop of `validateInstructionPrograms`, at instruction `i`. -/
def validateFrom (allowed : List String) (context : String) :
    ℕ → List TransactionInstruction → Except String Unit
  | _, [] => .ok ()
  | i, ix :: ixs =>
    if ix.programId ∈ allowed then validateFrom allowed context (i + 1) ixs
    else
      .error ("Transaction rejected: instruction " ++ toString i ++ " targets unknown program " ++
        ix.programId ++ " (" ++ context ++ "). " ++ onlyApproved)

def validateInstructionPrograms (s : FlashModule) (instructions : List TransactionInstruction)
    (context : String) : Except String Unit :=
  validateFrom s.ALLOWED_PROGRAM_IDS context 0 instructions

/-- The loop over the compiled instructions in `validateTransactionBeforeSign`:
the program of each, which must be a static key and allowed. -/
def compiledPrograms (allowed accountKeys : List String) (action : String) :
    List ℕ → Except String (List String)
  | [] => .ok []
  | index :: rest =>
    match accountKeys[index]? with
    | some progKey =>
      if progKey ≠ "" ∧ progKey ∈ allowed then
        (compiledPrograms allowed accountKeys action rest).map (progKey :: ·)
      else
        .error ("Transaction rejected: instruction targets unknown program " ++ progKey ++ " (" ++
          action ++ "). " ++ onlyApproved)
    | none =>
      .error ("Transaction rejected: instruction targets unknown program index=" ++
        toString index ++ " (" ++ action ++ "). " ++ onlyApproved)

/-- The programs of a serialized transaction that passes every check. -/
def validateTransactionBeforeSign (sdk : Sdk) (s : FlashModule) (txBase64 action : String) :
    Except String (List String) :=
  if txBase64.length < 10 then .error "Transaction too small to be valid"
  else
    match sdk.deserialize txBase64 with
    | .error message => .error ("Transaction deserialization failed: " ++ message)
    | .ok vtx =>
      if vtx.programIdIndexes.length = 0 then .error "Transaction has zero instructions"
      else
        match vtx.staticAccountKeys with
        | none => .error "Transaction has no static account keys"
        | some staticKeys =>
          if staticKeys.length = 0 then .error "Transaction has zero accounts"
          else if 256 < staticKeys.length then
            .error ("Transaction has " ++ toString staticKeys.length ++ " accounts (max 256)")
          else compiledPrograms s.ALLOWED_PROGRAM_IDS staticKeys action vtx.programIdIndexes

/-! ## The module as a machine -/

/-- What an observer sees: the programs of a transaction the wallet signs, and
the errors thrown before signing. -/
inductive Event where
  | signed (programs : List String)
  | rejected (error : String)
deriving DecidableEq, Repr

/-- What can happen; `client` is the index of the client that acts. -/
inductive Action where
  | construct (defaultPool : String)
  | getPoolConfigForMarket (client : ℕ) (market : String)
  | resolvePoolConfig (client : ℕ) (poolName : Option String)
  | backupOracle (client : ℕ) (answer : Option (List TransactionInstruction))
  | sendTx (client : ℕ) (instructions : List TransactionInstruction) (cuLimit cuPrice : ℕ)
  | sendApiTransaction (client : ℕ) (txBase64 action : String)

/-- `sendTx`: validate, add the compute budget, sign. -/
def sendTx (s : FlashModule) (instructions : List TransactionInstruction) (cuLimit cuPrice : ℕ) :
    List Event :=
  match s.validateInstructionPrograms instructions "sendTx" with
  | .error error => [.rejected error]
  | .ok () =>
    -- the budget instructions come after the validation
    let allIxs := buildOrderedIxs (setComputeUnitLimit cuLimit) (setComputeUnitPrice cuPrice)
      instructions
    [.signed (allIxs.map TransactionInstruction.programId)]

/-- `validateTransactionBeforeSign`, and the signing of what passes it. -/
def sendApiTransaction (sdk : Sdk) (s : FlashModule) (txBase64 action : String) : List Event :=
  match validateTransactionBeforeSign sdk s txBase64 action with
  | .error error => [.rejected error]
  | .ok programs => [.signed programs]

/-- One step; only a client that exists acts. -/
def step (sdk : Sdk) (s : FlashModule) : Action → Option (FlashModule × List Event)
  | .construct defaultPool => some (construct sdk s defaultPool, [])
  | .getPoolConfigForMarket i market =>
    s.clients[i]?.map fun c => (getPoolConfigForMarket sdk s i c market, [])
  | .resolvePoolConfig i poolName =>
    s.clients[i]?.map fun c => (resolvePoolConfig sdk s i c poolName, [])
  | .backupOracle i answer => s.clients[i]?.map fun _ => (s.fetchBackupOracleIxs i answer, [])
  | .sendTx i instructions cuLimit cuPrice =>
    s.clients[i]?.map fun _ => (s, s.sendTx instructions cuLimit cuPrice)
  | .sendApiTransaction i txBase64 action =>
    s.clients[i]?.map fun _ => (s, sendApiTransaction sdk s txBase64 action)

end FlashModule

/-- The module and its clients. -/
def flashClients (sdk : Sdk) : Machine FlashModule FlashModule.Action FlashModule.Event where
  init := {}
  step := FlashModule.step sdk

end FlashEdge
