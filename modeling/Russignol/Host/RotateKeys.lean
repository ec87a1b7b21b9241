import Russignol.Base.EarlyExit
import Russignol.Host.Wallet

/-!
# Rotating the keys

`host-utility/src/rotate_keys.rs`: the runs of `rotate-keys` against the wallet and the keys of the
delegate on the chain. A run detects how far a rotation has come (`detectRotationState`) and resumes
it, or starts one; it may fail or be killed in each of its operations. What the operator, the signer,
the chain and the wallet files answer is an input (`RunIo`), and each operation of a run that changes
the wallet or the chain is made at most once.

`Rotation` is what outlives a run. Two of its fields are history: the key transactions that were
accepted, and the keys of the promotion that was started last. What a run does is in its log, with
the state in which it did it.
-/

namespace Russignol.Host

open EarlyExit

/-- A value for each role. -/
def perRole {α : Type} (consensus companion : α) : KeyRole → α
  | .consensus => consensus
  | .companion => companion

/-! ## The chain -/

/-- A pending key, with the cycle in which it becomes active. -/
structure PendingKey where
  cycle : Int
  pkh : String
  deriving DecidableEq, Repr

/-- A key of the delegate. -/
structure KeyStatus where
  active : Option String
  pendings : List PendingKey
  deriving DecidableEq, Repr

/-- The keys of the delegate on the chain. -/
structure Delegate where
  key : KeyRole → KeyStatus

/-- `KeyActivationStatus`. -/
structure KeyActivationStatus where
  consensusPending : Bool
  consensusPendingHash : Option String
  consensusCycle : Option Int
  companionPending : Bool
  deriving DecidableEq, Repr

namespace Delegate

/-- `query_key_activation_status`: of the pending keys of a role the first. -/
def activationStatus (d : Delegate) : KeyActivationStatus where
  consensusPending := (d.key .consensus).pendings.head?.isSome
  consensusPendingHash := (d.key .consensus).pendings.head?.map (·.pkh)
  consensusCycle := (d.key .consensus).pendings.head?.map (·.cycle)
  companionPending := (d.key .companion).pendings.head?.isSome

/-- A key transaction is accepted: the key is pending after those of other cycles. -/
def accept (d : Delegate) (role : KeyRole) (pending : PendingKey) : Delegate where
  key := Function.update d.key role
    { d.key role with
      pendings := (d.key role).pendings.filter (·.cycle ≠ pending.cycle) ++ [pending] }

end Delegate

/-! ## A run -/

/-- What `rotate-keys` is called with. -/
structure RotateKeysOptions where
  monitorOnly : Bool
  replace : Bool
  dryRun : Bool
  autoConfirm : Bool
  deriving DecidableEq, Repr

/-- A step outside the wallet and the chain: a prompt, a device, the baker, the display. -/
inductive Point
  | preconditions
  | sdCard
  | hardwareConfig
  | restartMethod
  | connectNew
  | newDevice
  | submit
  | connectOld
  | oldDevice
  | display
  | waitForSwap
  | swap
  | stopBaker
  | swapDevice
  | swappedDevice
  | startBaker
  | bakerRunning
  | cleanup
  | rollback
  | retry
  | newConnected
  | signer
  | signerRetry
  | signerAgain
  | aliasSwap
  deriving DecidableEq, Repr

/-- What such a step comes to. -/
inductive Reply
  | yes
  | no
  | failed (text : String)
  | killed
  deriving DecidableEq, Repr

/-- What an operation on the wallet or the chain comes to. It is done or it is not, also where the
run is killed in it. -/
inductive Effect
  | done
  | failed (text : String)
  | killed (landed : Bool)
  deriving DecidableEq, Repr

/-- The operation took place. -/
def Effect.lands : Effect → Bool
  | .done => true
  | .failed _ => false
  | .killed landed => landed

/-- Where the chain is queried. -/
inductive QueryPoint
  | monitor
  | detect
  | active
  | fresh
  | existing
  | poll (left : Nat)
  | reconnect
  | onChain
  | wait (left : Nat)
  deriving DecidableEq, Repr

/-- The signals of `verify_baker_signing`, in one attempt. -/
structure Signals where
  processAlive : Bool
  signerHasNewKey : Bool
  activeConsensusKey : Option String
  deriving DecidableEq, Repr

/-- What a run is answered. -/
structure RunIo where
  opts : RotateKeysOptions
  ask : Point → Reply
  /-- The chain at a query, after what it was before; `none` where the query fails. -/
  observe : QueryPoint → Delegate → Option Delegate
  /-- How often the activation is polled before the run is killed. -/
  waits : Nat
  /-- `discover_remote_keys`. -/
  remoteKeys : Except String (List String)
  signals : List Signals
  rename : BakerAlias → BakerAlias → Effect
  forget : BakerAlias → Effect
  importKey : KeyRole → Effect
  setKey : KeyRole → Effect
  /-- The cycle from which a key that is set is active. -/
  activationCycle : KeyRole → Int
  signerUri : String

/-- The keys of a promotion. -/
structure Promotion where
  old : KeyRole → String
  new : KeyRole → String

/-- What outlives a run. -/
structure Rotation where
  wallet : Wallet
  chain : Delegate
  /-- History: the keys that were set, the last first. -/
  accepted : List (KeyRole × String)
  /-- History: the keys of the last promotion. -/
  promotion : Option Promotion

/-- What a run does. -/
inductive Event
  /-- The swap sequence starts. -/
  | swapping
  /-- An `-old` alias is forgotten. -/
  | forgetting (role : KeyRole)
  /-- The operator chose the rollback. -/
  | rollingBack
  /-- "Key Rotation Complete" is reported. -/
  | completed
  deriving DecidableEq, Repr

/-- The state of a run. -/
structure World where
  now : Rotation
  /-- What the run did, the last first, with the state in which it did it. -/
  log : List (Event × Rotation)

/-- A part of a run. -/
abbrev Rotate (α : Type) : Type := Prog World α

/-! ## Operations -/

/-- Record what the run does. -/
def emit (e : Event) : Rotate Unit := modify fun w => { w with log := (e, w.now) :: w.log }

/-- A step outside. -/
def ask (io : RunIo) (p : Point) : Rotate Bool :=
  match io.ask p with
  | .yes => pure true
  | .no => pure false
  | .failed text => throw (.failed text)
  | .killed => throw .killed

/-- A step outside that answers nothing. -/
def step (io : RunIo) (p : Point) : Rotate Unit := do
  let _ ← ask io p
  pure ()

/-- A prompt that `--yes` answers. -/
def confirm (io : RunIo) (p : Point) : Rotate Bool :=
  if io.opts.autoConfirm then pure true else ask io p

/-- A change of what outlives the run, or the error. -/
def perform (effect : Effect) (f : Rotation → Rotation) : Rotate (Except String Unit) :=
  match effect with
  | .done => do
    modify fun w => { w with now := f w.now }
    pure (.ok ())
  | .failed text => pure (.error text)
  | .killed landed => do
    modify fun w => if landed then { w with now := f w.now } else w
    throw .killed

/-- The step is taken unless it is done already. -/
def stepUnless (io : RunIo) (already : Bool) (p : Point) : Rotate Unit :=
  if already then pure () else step io p

/-- What `--dry-run` leaves out. -/
def unlessDry (io : RunIo) (m : Rotate Unit) : Rotate Unit :=
  if io.opts.dryRun then pure () else m

/-- `?`. -/
def orFail (r : Except String Unit) : Rotate Unit :=
  match r with
  | .ok () => pure ()
  | .error text => throw (.failed text)

/-- `?`, with a context. -/
def orContext (context : String) (r : Except String Unit) : Rotate Unit :=
  orFail (r.mapError fun text => context ++ ": " ++ text)

/-- The query of the chain. -/
def query (io : RunIo) (p : QueryPoint) : Rotate Delegate := do
  let w ← get
  match io.observe p w.now.chain with
  | none => throw (.failed "Failed to query delegate info")
  | some chain =>
    modify fun w => { w with now := { w.now with chain } }
    pure chain

/-- `get_active_consensus_key`. -/
def getActiveConsensusKey (io : RunIo) (p : QueryPoint) : Rotate String := do
  let chain ← query io p
  match (chain.key .consensus).active with
  | some pkh => pure pkh
  | none => throw (.failed "Could not find active consensus key")

/-- What an alias stands for. -/
def keyHash (a : BakerAlias) : Rotate (Option String) := do
  let w ← get
  pure (w.now.wallet.hash a)

/-- `get_key_hash`, with a context. -/
def getKeyHash (context : String) (a : BakerAlias) : Rotate String := do
  let hash ← keyHash a
  match hash with
  | some hash => pure hash
  | none => throw (.failed (context ++ ": Could not parse key hash from octez-client output"))

/-- `rename_alias_locally`, as one operation. -/
def renameAliasLocally (io : RunIo) (oldAlias newAlias : BakerAlias) :
    Rotate (Except String Unit) := do
  let found ← keyHash oldAlias
  let r ← perform (io.rename oldAlias newAlias) fun s =>
    { s with wallet := s.wallet.renameAlias oldAlias newAlias }
  pure (if found.isSome then r
    else r.bind fun _ => .error ("Alias '" ++ oldAlias.name ++ "' not found in wallet. Cannot " ++
      "rename to '" ++ newAlias.name ++ "'."))

/-- `forget_key_alias`: an alias that is not there is forgotten. -/
def forgetKeyAlias (io : RunIo) (a : BakerAlias) : Rotate (Except String Unit) :=
  perform (io.forget a) fun s => { s with wallet := s.wallet.forget a }

/-- `set consensus key` and `set companion key`: the client refuses an alias it does not know. -/
def setKey (io : RunIo) (role : KeyRole) : Rotate (Except String Unit) := do
  let hash ← keyHash (.pending role)
  match hash with
  | none => pure (.error ("no public key hash alias named " ++ (BakerAlias.pending role).name))
  | some pkh =>
    perform (io.setKey role) fun s => { s with
      chain := s.chain.accept role ⟨io.activationCycle role, pkh⟩
      accepted := (role, pkh) :: s.accepted }

/-! ## The promotion of the aliases -/

/-- `rollback_incomplete`. -/
def rollbackIncomplete (err : String) (unrestored : List BakerAlias) : String :=
  if unrestored.isEmpty then err
  else "Rollback incomplete — wallet is inconsistent. Could not restore alias(es): " ++
    ", ".intercalate (unrestored.map (·.name)) ++ ". Restore them manually before retrying.: " ++
    err

/-- The renames of a rollback, whether or not they fail: the aliases that were not restored. -/
def restore (io : RunIo) : List (BakerAlias × BakerAlias) → Rotate (List BakerAlias)
  | [] => pure []
  | (oldAlias, newAlias) :: renames => do
    let r ← renameAliasLocally io oldAlias newAlias
    let unrestored ← restore io renames
    pure (if r.isOk then unrestored else newAlias :: unrestored)

/-- A rename of the promotion, and the rollback where it fails. -/
def renameOrRestore (io : RunIo) (oldAlias newAlias : BakerAlias) (context : String)
    (rollback : List (BakerAlias × BakerAlias)) : Rotate Unit := do
  let r ← renameAliasLocally io oldAlias newAlias
  match r with
  | .ok () => pure ()
  | .error text =>
    let unrestored ← restore io rollback
    throw (.failed (rollbackIncomplete (context ++ ": " ++ text) unrestored))

/-- `promote_aliases_with_backup`. -/
def promoteAliasesWithBackup (io : RunIo) : Rotate Unit := do
  let pendingConsensus ← getKeyHash "Cannot find pending consensus key alias" (.pending .consensus)
  let pendingCompanion ← getKeyHash "Cannot find pending companion key alias" (.pending .companion)
  let currentConsensus ← getKeyHash "Cannot find current consensus key alias" (.live .consensus)
  let currentCompanion ← getKeyHash "Cannot find current companion key alias" (.live .companion)
  modify fun w => { w with now := { w.now with promotion := some {
    old := perRole currentConsensus currentCompanion
    new := perRole pendingConsensus pendingCompanion } } }
  renameOrRestore io (.live .consensus) (.old .consensus) "Failed to backup consensus key" []
  renameOrRestore io (.live .companion) (.old .companion) "Failed to backup companion key"
    [(.old .consensus, .live .consensus)]
  renameOrRestore io (.pending .consensus) (.live .consensus)
    "Failed to promote pending consensus key"
    [(.old .consensus, .live .consensus), (.old .companion, .live .companion)]
  renameOrRestore io (.pending .companion) (.live .companion)
    "Failed to promote pending companion key"
    [(.live .consensus, .pending .consensus), (.old .consensus, .live .consensus),
      (.old .companion, .live .companion)]

/-- `signing_verified`. -/
def signingVerified (s : Signals) (expectedConsensusHash : String) : Bool :=
  s.processAlive && s.signerHasNewKey && s.activeConsensusKey = some expectedConsensusHash

/-- `verify_baker_signing`: twelve attempts. -/
def verifyBakerSigning (signals : List Signals) (w : Wallet) : Bool :=
  match w.hash (.live .consensus) with
  | none => false
  | some expected => (signals.take 12).any (signingVerified · expected)

/-- The loop of `cleanup_backup_aliases`: the aliases that were not removed. -/
def forgetBackups (io : RunIo) (oldHashes : KeyRole → Option String) :
    List KeyRole → Rotate (List BakerAlias)
  | [] => pure []
  | role :: roles =>
    if (oldHashes role).isSome then do
      emit (.forgetting role)
      let r ← forgetKeyAlias io (.old role)
      let unremoved ← forgetBackups io oldHashes roles
      pure (if r.isOk then unremoved else .old role :: unremoved)
    else forgetBackups io oldHashes roles

/-- `cleanup_backup_aliases`. -/
def cleanupBackupAliases (io : RunIo) : Rotate Unit := do
  let w ← get
  let oldHashes := fun role => w.now.wallet.hash (.old role)
  if KeyRole.all.all fun role => (oldHashes role).isNone then pure ()
  else
    let proceed ← confirm io .cleanup
    if proceed then
      let unremoved ← forgetBackups io oldHashes KeyRole.all
      if unremoved.isEmpty then pure ()
      else throw (.failed ("Could not remove backup alias(es): " ++
        ", ".intercalate (unremoved.map (·.name)) ++ ". Remove them manually — a leftover -old " ++
        "alias makes the next rotation misdetect an in-progress swap."))
    else pure ()

/-- `rollback_aliases`. -/
def rollbackAliases (io : RunIo) : Rotate Unit := do
  let r ← renameAliasLocally io (.old .consensus) (.live .consensus)
  orFail r
  let r ← renameAliasLocally io (.old .companion) (.live .companion)
  orFail r

/-! ## Submitting the keys -/

/-- `discover_key_hashes`: the first two keys of the signer. -/
def discoverKeyHashes (io : RunIo) : Except String (KeyRole → String) :=
  match io.remoteKeys with
  | .error e => .error e
  | .ok (consensus :: companion :: _) => .ok (perRole consensus companion)
  | .ok remoteKeys => .error ("Expected at least 2 remote keys but found " ++
      toString remoteKeys.length ++ ". Is this a properly configured Russignol device?")

/-- `import_new_keys`. -/
def importNewKeys (io : RunIo) (hashes : KeyRole → String) : List KeyRole → Rotate Unit
  | [] => pure ()
  | role :: roles => do
    let r ← perform (io.importKey role) fun s => { s with
      wallet := s.wallet.importKey (.pending role) (io.signerUri ++ "/" ++ hashes role)
        (hashes role) }
    orContext ("Failed to import key '" ++ (BakerAlias.pending role).name ++ "'") r
    importNewKeys io hashes roles

/-- The loop of `submit_key_rotation_transactions`. -/
def setKeys (io : RunIo) : List KeyRole → Rotate Unit
  | [] => pure ()
  | role :: roles => do
    let r ← setKey io role
    orContext ("Failed to set " ++ role.deviceAlias ++ " key") r
    setKeys io roles

/-- `poll_for_pending_activation`, with the attempts that are left. -/
def pollForPendingActivation (io : RunIo) : Nat → Rotate Int
  | 0 => throw (.failed
      "Transaction submitted but pending status not confirmed after 120 seconds")
  | left + 1 => do
    let chain ← query io (.poll left)
    let status := chain.activationStatus
    if status.consensusPending then
      match status.consensusCycle with
      | some cycle => pure cycle
      | none => pollForPendingActivation io left
    else pollForPendingActivation io left

/-- `submit_key_rotation_transactions`. -/
def submitKeyRotationTransactions (io : RunIo) : Rotate Int := do
  let confirmed ← confirm io .submit
  if confirmed then
    setKeys io KeyRole.all
    pollForPendingActivation io 24
  else throw (.failed "Transaction submission cancelled by user")

/-! ## The swap -/

/-- The end of the swap sequence, where the baker signs. -/
def completeRotation (io : RunIo) : Rotate Unit := do
  cleanupBackupAliases io
  emit .completed

/-- `execute_swap_sequence`. -/
def executeSwapSequence (io : RunIo) : Rotate Unit := do
  let proceed ← confirm io .swap
  if proceed then
    emit .swapping
    step io .stopBaker
    step io .swapDevice
    step io .swappedDevice
    promoteAliasesWithBackup io
    step io .startBaker
    let w ← get
    if verifyBakerSigning io.signals w.now.wallet then completeRotation io else pure ()
  else pure ()

/-- The loop of `wait_for_activation_and_swap`, with the polls that are left. -/
def waitForActivation (io : RunIo) : Nat → Rotate Unit
  | 0 => throw .killed
  | left + 1 => do
    let chain ← query io (.wait left)
    if chain.activationStatus.consensusPending then waitForActivation io left else pure ()

/-- `wait_for_activation_and_swap`. -/
def waitForActivationAndSwap (io : RunIo) : Rotate Unit := do
  waitForActivation io io.waits
  executeSwapSequence io

/-- `run_activation_monitoring`. -/
def runActivationMonitoring (io : RunIo) : Rotate Unit := do
  step io .display
  let shouldWait ← confirm io .waitForSwap
  if shouldWait then waitForActivationAndSwap io else pure ()

/-! ## Resuming -/

/-- `resume_from_pending`. -/
def resumeFromPending (io : RunIo) : Rotate Unit := do
  step io .display
  let shouldWait ← confirm io .waitForSwap
  if shouldWait then
    step io .hardwareConfig
    step io .restartMethod
    waitForActivationAndSwap io
  else pure ()

/-- The prompt of `resume_from_keys_imported`: what is not a retry is a cleanup. -/
def chooseRetry (io : RunIo) : Rotate Bool :=
  if io.opts.autoConfirm then pure true
  else match io.ask .retry with
    | .yes => pure true
    | .no | .failed _ => pure false
    | .killed => throw .killed

/-- `resume_from_keys_imported`. -/
def resumeFromKeysImported (io : RunIo) : Rotate Unit := do
  let retry ← chooseRetry io
  if retry then
    step io .connectNew
    step io .newDevice
    let _ ← submitKeyRotationTransactions io
    let _ ← getActiveConsensusKey io .reconnect
    step io .connectOld
    step io .oldDevice
    resumeFromPending io
  else
    let r ← forgetKeyAlias io (.pending .consensus)
    orContext "Failed to clean up the pending consensus key" r
    let r ← forgetKeyAlias io (.pending .companion)
    orContext "Failed to clean up the pending companion key" r

/-- `resume_from_pending_on_chain_only`. -/
def resumeFromPendingOnChainOnly (io : RunIo) : Rotate Unit := do
  let chain ← query io .onChain
  let shouldImport ← confirm io .newConnected
  if shouldImport then
    match discoverKeyHashes io with
    | .ok hashes =>
      if chain.activationStatus.consensusPendingHash = some (hashes .consensus) then
        importNewKeys io hashes KeyRole.all
        resumeFromPending io
      else step io .display
    | .error _ => step io .display
  else step io .display

/-- The check of the signer's connectivity, with one retry. -/
def checkSigner (io : RunIo) : Rotate Unit := do
  let signerOk ← ask io .signer
  if signerOk then pure ()
  else if io.opts.autoConfirm then
    throw (.failed "Signer not accessible and --yes specified. Cannot proceed automatically.")
  else
    let proceed ← ask io .signerRetry
    if proceed then
      let signerOk ← ask io .signerAgain
      if signerOk then pure ()
      else throw (.failed ("Signer still not accessible. Please check the device connection and " ++
        "try again."))
    else throw (.failed "User aborted")

/-- `resume_from_keys_activated_need_swap`. -/
def resumeFromKeysActivatedNeedSwap (io : RunIo) : Rotate Unit := do
  let pendingHash ← getKeyHash "pending" (.pending .consensus)
  checkSigner io
  match io.remoteKeys with
  | .error text => throw (.failed text)
  | .ok availableKeys =>
    if pendingHash ∈ availableKeys then
      let proceed ← confirm io .aliasSwap
      if proceed then
        emit .swapping
        promoteAliasesWithBackup io
        let bakerRunning ← ask io .bakerRunning
        stepUnless io bakerRunning .startBaker
        let w ← get
        if verifyBakerSigning io.signals w.now.wallet then completeRotation io else pure ()
      else throw (.failed "User aborted")
    else throw (.failed ("Signer doesn't have the active key " ++ pendingHash ++
      ". Is the correct device connected?"))

/-- `resume_from_partial_swap`. -/
def resumeFromPartialSwap (io : RunIo) : Rotate Unit := do
  let bakerRunning ← ask io .bakerRunning
  stepUnless io bakerRunning .startBaker
  let w ← get
  if verifyBakerSigning io.signals w.now.wallet then completeRotation io
  else
    let shouldRollback ← ask io .rollback
    if shouldRollback then
      emit .rollingBack
      rollbackAliases io
    else pure ()

/-! ## The state of a rotation -/

/-- `RotationState`. -/
inductive RotationState
  | clean
  | keysImported (consensusHash companionHash : String)
  | pending (activationCycle : Int)
  | pendingOnChainOnly (activationCycle : Int)
  | keysActivatedNeedSwap
  | partialSwap
  deriving DecidableEq, Repr

/-- `pending_aliases_exist`. -/
def pendingAliasesExist (w : Wallet) : Bool :=
  (w.hash (.pending .consensus)).isSome || (w.hash (.pending .companion)).isSome

/-- `old_aliases_exist`. -/
def oldAliasesExist (w : Wallet) : Bool :=
  (w.hash (.old .consensus)).isSome || (w.hash (.old .companion)).isSome

/-- `detect_rotation_state`. -/
def detectRotationState (io : RunIo) : Rotate RotationState := do
  let w ← get
  let wallet := w.now.wallet
  if oldAliasesExist wallet then pure .partialSwap
  else
    let chain ← query io .detect
    let status := chain.activationStatus
    if status.consensusPending then
      match status.consensusCycle with
      | none => throw (.failed ("On-chain consensus key is pending but no activation cycle was " ++
          "reported"))
      | some activationCycle =>
        if pendingAliasesExist wallet then pure (.pending activationCycle)
        else pure (.pendingOnChainOnly activationCycle)
    else if pendingAliasesExist wallet then
      let consensusHash := (wallet.hash (.pending .consensus)).getD ""
      let companionHash := (wallet.hash (.pending .companion)).getD ""
      let activeKey ← getActiveConsensusKey io .active
      if activeKey = consensusHash then pure .keysActivatedNeedSwap
      else pure (.keysImported consensusHash companionHash)
    else pure .clean

/-! ## The command -/

/-- `verify_preconditions`: the node, the delegate, the balance and the client, and the consensus
key's alias. -/
def verifyPreconditions (io : RunIo) : Rotate Unit := do
  let met ← ask io .preconditions
  let key ← keyHash (.live .consensus)
  if met && key.isSome then pure ()
  else throw (.failed ("Pre-rotation requirements not met. Please resolve the issues above."))

/-- `handle_replace_flag`. -/
def handleReplaceFlag (io : RunIo) (state : RotationState) : Rotate RotationState :=
  match state with
  | .pending _ | .pendingOnChainOnly _ | .keysImported _ _ => do
    let r ← forgetKeyAlias io (.pending .consensus)
    orContext "Failed to clear the pending consensus key for --replace" r
    let r ← forgetKeyAlias io (.pending .companion)
    orContext "Failed to clear the pending companion key for --replace" r
    pure .clean
  | .partialSwap | .keysActivatedNeedSwap =>
    throw (.failed "Cannot use --replace during swap state")
  | .clean => pure .clean

/-- `check_existing_pending_keys`: whether the rotation went on from there. -/
def checkExistingPendingKeys (io : RunIo) (consensusHash : String) : Rotate Bool := do
  let chain ← query io .existing
  let status := chain.activationStatus
  if status.consensusPending then
    match status.consensusPendingHash with
    | none => pure false
    | some pendingHash =>
      if pendingHash = consensusHash then
        step io .connectOld
        step io .oldDevice
        match status.consensusCycle with
        | none => throw (.failed ("Keys are pending on-chain but no activation cycle was " ++
            "reported; cannot compute the swap window"))
        | some _ =>
          resumeFromPending io
          pure true
      else if io.opts.replace then pure false
      else throw (.failed "Cannot rotate: different key already pending on-chain")
  else pure false

/-- `check_sd_card_readiness`, but for a dry run: whether the new device is connected. -/
def checkSdCardReadiness (io : RunIo) : Rotate Bool :=
  if io.opts.dryRun || io.opts.autoConfirm then pure false else ask io .sdCard

/-- The submission of a fresh rotation, and what follows it. -/
def submitAndMonitor (io : RunIo) : Rotate Unit := do
  unlessDry io (discard (submitKeyRotationTransactions io))
  step io .connectOld
  step io .oldDevice
  unlessDry io (runActivationMonitoring io)

/-- `execute_fresh_rotation`. -/
def executeFreshRotation (io : RunIo) : Rotate Unit := do
  let connected ← checkSdCardReadiness io
  step io .hardwareConfig
  step io .restartMethod
  stepUnless io connected .connectNew
  step io .newDevice
  match discoverKeyHashes io with
  | .error text => throw (.failed text)
  | .ok newHashes =>
    let currentConsensus ← getActiveConsensusKey io .fresh
    if newHashes .consensus = currentConsensus then pure ()
    else
      unlessDry io (importNewKeys io newHashes KeyRole.all)
      let goesOn ← checkExistingPendingKeys io (newHashes .consensus)
      if goesOn then pure () else submitAndMonitor io

/-- `handle_resumed_state`, and the fresh rotation of a clean state. -/
def handleState (io : RunIo) : RotationState → Rotate Unit
  | .partialSwap => do
    step io .restartMethod
    resumeFromPartialSwap io
  | .keysImported _ _ => do
    step io .hardwareConfig
    step io .restartMethod
    resumeFromKeysImported io
  | .pending _ => resumeFromPending io
  | .pendingOnChainOnly _ => resumeFromPendingOnChainOnly io
  | .keysActivatedNeedSwap => do
    step io .restartMethod
    resumeFromKeysActivatedNeedSwap io
  | .clean => executeFreshRotation io

/-- `run`. -/
def rotateKeys (io : RunIo) : Rotate Unit := do
  if io.opts.monitorOnly then
    let _ ← query io .monitor
    pure ()
  else
    verifyPreconditions io
    let state ← detectRotationState io
    let state ← if io.opts.replace then handleReplaceFlag io state else pure state
    handleState io state

/-- A run, with a new log. -/
def runOf (io : RunIo) (s : Rotation) : World := final (rotateKeys io) ⟨s, []⟩

/-- Take a run. -/
def Rotation.step (s : Rotation) (io : RunIo) : Option Rotation := some (runOf io s).now

/-- The pending keys become active. -/
def Delegate.activate (d : Delegate) : Delegate where
  key := fun role => {
    active := ((d.key role).pendings.getLast?.map (·.pkh)).or (d.key role).active
    pendings := [] }

/-- A run in which everything goes through, and the pending keys become active once it waits. -/
def smoothRun : RunIo where
  opts := ⟨false, false, false, true⟩
  ask := fun _ => .yes
  observe := fun p chain => match p with
    | .wait _ => some chain.activate
    | _ => some chain
  waits := 1
  remoteKeys := .ok ["new", "newC"]
  signals := [⟨true, true, some "new"⟩]
  rename := fun _ _ => .done
  forget := fun _ => .done
  importKey := fun _ => .done
  setKey := fun _ => .done
  activationCycle := fun _ => 1
  signerUri := "tcp://signer"

end Russignol.Host
