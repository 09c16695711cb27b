import LmmApi.HeroSms.Sms.Statement
import LmmApi.Lib.Threads

/-!
# The processes on orders of telephone numbers

`CreateHeroSMSSMSOrder`, `RefreshHeroSMSSMSOrder`, `CancelHeroSMSSMSOrder`,
`SubmitHeroSMSSMSComplaint` and `RunHeroSMSSMSReconciliationOnce` run as threads over the database.
An instruction is one database statement or one call of the provider, with what the process decides
after it; an order that a process has read is an argument of the instructions that still use it. A
process may crash between any two instructions.

What the environment decides is the answer to an instruction: what the provider returns, whether the
lease is acquired, and whether the encryption, the configuration or the database fails. Nothing here
depends on the lease being exclusive. The views that the functions return are left out.
-/

namespace LmmApi.HeroSms.Sms

open Guarded Go Threads

/-- What the environment answers to an instruction. -/
inductive Answer
  | ok
  /-- The lease, the configuration or the encryption is not available. -/
  | fail
  /-- The statement fails in the database. -/
  | abort
  | error (e : ProviderError)
  | offer (tiers : List Tier)
  | operators (names : List String)
  | activations (l : List ActiveActivation)
  | activation (a : Activation)
  /-- `GetSMSActivationState`: cancelled, completed, or still waiting. -/
  | state (cancelled completed : Bool)
  | status (code : String)

/-- Whether the answer grants what an instruction that only reads asks for. -/
def Answer.granted : Answer → Option Bool
  | .ok => some true
  | .fail | .abort => some false
  | _ => none

/-- A purchase that is being made. -/
structure Purchase where
  user : ℕ
  idempotencyHash : String
  payloadHash : String
  quote : Quote
  multiplier : ℚ≥0
  cost : ℚ
  chargeQuota : ℤ

inductive Instr
  | create (user : ℕ) (offerId idempotencyKey : String)
  | checkOffer (user : ℕ) (idempotencyHash payloadHash : String) (quote : Quote) (multiplier : ℚ≥0)
  | recheck (p : Purchase)
  | checkOperator (p : Purchase)
  | recheckOffer (p : Purchase)
  | snapshot (p : Purchase)
  | reserve (p : Purchase) (knownIds : List String)
  | markStarted (id : ℕ)
  | purchase (id : ℕ)
  | complete (id : ℕ) (a : Activation)
  | reject (id : ℕ) (activationId : String) (e : HeroError)
  | cancelRejected (id : ℕ)
  | refund (id : ℕ) (status : Status) (code message : String) (expected : List Status)
  | refresh (user id : ℕ)
  | refreshHeld (user id : ℕ)
  | expire (user id : ℕ)
  | finalizeClaimed (user id : ℕ)
  | pollStatus (id : ℕ) (o : Order)
  | pollState (id : ℕ)
  | completeCode (id : ℕ) (o : Order)
  | finalize (id : ℕ) (o : Order)
  | finalizeStatus (id : ℕ) (o : Order) (completed : Bool)
  | completePending (id : ℕ) (o : Order) (completed : Bool)
  | cancelProvider (id : ℕ) (o : Order) (completed : Bool)
  | cancel (user id : ℕ)
  | claimCancel (user id : ℕ)
  | complain (user id : ℕ) (complaintType : String)
  | complainHeld (user id : ℕ) (complaintType : String)
  | claimComplaint (user id : ℕ) (complaintType : String)
  | submitComplaint (id : ℕ)
  | reconcile (limit : ℤ)
  | reconcileOrder (id : ℕ)
  | listActive (id : ℕ) (o : Order)
  | reconcileCancellation (user id : ℕ)
  | reconcileComplaint (user id : ℕ)
  | resubmit (id : ℕ) (o : Order)
  | complaintState (id : ℕ) (o : Order)
  | complaintStatus (id : ℕ) (o : Order)
  | complaintChecked (id : ℕ)

variable (id : ℕ) (o : Order) (db : Db)

/-! ## Creation -/

/-- The checks of a quote that do not ask the provider: the quote with the multiplier it was made
for. -/
def checkQuote (env : Env) (db : Db) (user : ℕ) (offerId : String) :
    Except Failure (Quote × ℚ≥0) := do
  let changed (message : String) : Failure := .hero ⟨409, "PRICE_CHANGED", message⟩
  let quote ← orFail (env.decodeQuote offerId) (changed "refresh the HeroSMS SMS quote")
  require (changed "refresh the HeroSMS SMS quote")
    (quote.version = quoteVersion ∧ quote.userId = user ∧ quote.currencyCode = currencyCode ∧
      db.now - quote.issuedAt ≤ quoteTTL)
  let multiplier ← db.settings.multiplierDecimal
  require (changed "HeroSMS price multiplier changed") (multiplier = quote.multiplier)
  return (quote, multiplier)

/-- `heroSMSSMSHasInventoryWithinPrice`. -/
def hasInventoryWithinPrice (tiers : List Tier) (maxPrice : ℚ) : Bool :=
  0 < maxPrice ∧ tiers.any fun t => 0 < t.count ∧ t.price ≤ maxPrice

/-- The price of a purchase: its cost and what it reserves. -/
def priceOf (quote : Quote) (multiplier : ℚ≥0) (tiers : List Tier) : Except Failure (ℚ × ℤ) := do
  let changed : Failure := .hero ⟨409, "PRICE_CHANGED", "HeroSMS SMS price or inventory changed"⟩
  let cost ← orFail quote.cost changed
  require changed (0 < cost ∧ hasInventoryWithinPrice tiers cost)
  let charge ← db.settings.chargeQuota (cost * multiplier)
  return (cost, charge)

/-- The checks under the lease: the quote is still fresh and the multiplier the same. -/
def stillValid (quote : Quote) : Bool :=
  db.now - quote.issuedAt ≤ quoteTTL ∧ db.settings.multiplier ≠ 0 ∧
    db.settings.multiplier = quote.multiplier

/-- The order that a purchase reserves. -/
def Purchase.order (p : Purchase) (now : ℤ) (knownIds : List String) : Order where
  userId := p.user
  idempotencyKeyHash := p.idempotencyHash
  requestPayloadHash := p.payloadHash
  countryId := p.quote.countryId
  service := p.quote.service
  operator := p.quote.operator
  status := .pendingProvider
  priceMultiplier := p.multiplier
  providerPriceCNY := p.cost
  reservedQuota := p.chargeQuota
  chargeQuota := p.chargeQuota
  knownIds := knownIds
  lastErrorCode := "PROVIDER_INTENT_PENDING"
  lastErrorMessage := "provider purchase intent is reserved but not started"
  providerRequestStartedAt := now
  createdAt := now
  updatedAt := now

/-- The request of `CreateHeroSMSSMSOrder` up to the first call of the provider. -/
def create (env : Env) (user : ℕ) (offerId idempotencyKey : String) (db : Db) : List Instr :=
  let key := trimSpace idempotencyKey
  if user = 0 ∨ key = "" ∨ 128 < len key ∨ trimSpace offerId = "" then []
  else
    let hash := env.sha256Hex key
    let payload := env.sha256Hex (env.marshalRequest offerId)
    match db.replay user hash payload, checkQuote env db user offerId with
    | .missed, .ok (quote, multiplier) => [.checkOffer user hash payload quote multiplier]
    | _, _ => []

/-- The recheck of a purchase under the lease. -/
def recheck (p : Purchase) (db : Db) : List Instr :=
  match db.replay p.user p.idempotencyHash p.payloadHash with
  | .missed =>
    if stillValid db p.quote then
      [if p.quote.operator = "" then .recheckOffer p else .checkOperator p]
    else []
  | _ => []

/-- `failHeroSMSSMSOrder`. -/
def failOrder (code message : String) : Instr := .refund id .failed code message [.purchaseUnknown]

/-- What follows the call of the provider. -/
def purchased : Answer → Option (List Instr)
  | .activation a => some [.complete id a]
  | .error e =>
    if e.outcomeUnknown then some [.reconcileOrder id]
    else some [failOrder id (mapProviderError e).code (mapProviderError e).message]
  | _ => none

/-- `completeHeroSMSSMSOrder`: without encryption, and if the price or the currency is not the one
of the quote, the activation is rejected. -/
def complete (id : ℕ) (a : Activation) (db : Db) : Answer → Option (Effect Db Unit Instr)
  | .ok =>
    if trimSpace a.id = "" ∨ trimSpace a.phoneNumber = "" then
      goto db [failOrder id "BAD_UPSTREAM_RESPONSE" "HeroSMS returned an invalid SMS activation"]
    else match db.complete id a with
      | .ok db' => goto db' []
      | .error (.hero e) =>
        if e.code = "PRICE_CHANGED" ∨ e.code = "CURRENCY_MISMATCH" then
          goto db [.reject id a.id e]
        else goto db []
      | .error _ => goto db []
  | .fail => goto db [.reject id a.id ⟨503, "NOT_CONFIGURED", "HeroSMS encryption is unavailable"⟩]
  | .abort => goto db []
  | _ => none

/-! ## Cancellation -/

/-- The provider id of an order, if there is one. -/
def Order.provider : Option String := (o.providerId.map trimSpace).filter fun id => id ≠ ""

/-- `heroSMSSMSCancellationResult`, as the refund it leads to. -/
def cancellationResult : Instr :=
  let status := if o.cancelFinalStatus = some .failed then .failed else .cancelled
  let code := trimSpace o.cancelErrorCode
  let message := trimSpace o.cancelErrorMessage
  .refund id status (if code = "" then "USER_CANCELLED" else code)
    (if message = "" then "activation cancelled before receiving a code" else message)
    [.cancelPending]

/-- The first part of `finalizeHeroSMSSMSCancellation`. -/
def finalize : Answer → Option (Effect Db Unit Instr)
  | .state cancelled completed =>
    if o.provider = none then goto db []
    else if cancelled then goto db [cancellationResult id o]
    else goto db [.finalizeStatus id o completed]
  | .error _ => goto db []
  | _ => none

/-- The last part of `finalizeHeroSMSSMSCancellation`: ask the provider to cancel. -/
def cancelProvider (completed : Bool) (db : Db) : Answer → Option (Effect Db Unit Instr)
  | .ok =>
    if completed ∨ o.providerCancelAcceptedAt ≠ 0 then goto db [] else goto (db.acceptCancel id) []
  | .error _ | .abort => goto db []
  | _ => none

/-- `RefreshHeroSMSSMSOrder` with the lease. -/
def refreshHeld (user id : ℕ) (db : Db) : List Instr :=
  match db.orderOf user id with
  | none => []
  | some o =>
    if o.status = .cancelPending then [.finalize id o]
    else if o.status ≠ .active ∨ o.providerId = none then []
    else if 0 < o.providerExpiresAt ∧ o.providerExpiresAt ≤ db.now then [.expire user id]
    else if o.complaintStatus.needsReconciliation then [.resubmit id o, .complaintChecked id]
    else [.pollStatus id o]

/-- `CancelHeroSMSSMSOrder` up to the claim. -/
def cancel (user id : ℕ) (db : Db) : List Instr :=
  match db.orderOf user id with
  | none => []
  | some o => if o.status ≠ .active ∨ o.provider = none then [] else [.claimCancel user id]

/-! ## Complaints -/

/-- `SubmitHeroSMSSMSComplaint` up to the claim. -/
def complainHeld (user id : ℕ) (complaintType : String) (db : Db) : List Instr :=
  match db.orderOf user id with
  | none => []
  | some o =>
    if o.status ≠ .active ∨ o.provider = none ∨ db.now < o.createdAt + complaintWait ∨
        o.complaintStatus.needsReconciliation ∨
        (o.complaintStatus ≠ .none ∧ o.complaintStatus ≠ .failed) then []
    else [.claimComplaint user id complaintType]

/-- A complaint is to be submitted again. -/
def shouldRetrySubmission (now : ℤ) (o : Order) : Bool :=
  (o.complaintStatus = .submitting ∨ o.complaintStatus = .submitUnknown) ∧
    o.complaintSubmitAttempts < complaintMaxAttempts ∧
    (o.complaintNextRetryAt = 0 ∨ o.complaintNextRetryAt ≤ now)

/-- The first part of `reconcileHeroSMSSMSComplaintWithProviderLeaseHeld`, with the result of the
submission. -/
def resubmit (error : Option ProviderError) : Option (Effect Db Unit Instr) :=
  if o.provider = none then goto db []
  else if shouldRetrySubmission db.now o then
    let attempts := o.complaintSubmitAttempts + 1
    goto (db.recordRetry id attempts error) (if Db.complaintOutcome error = .failed then []
      else [.complaintState id { o with
        complaintStatus := Db.complaintOutcome error
        complaintSubmitAttempts := attempts
        complaintNextRetryAt := Db.complaintRetry db.now error }])
  else goto db [.complaintState id o]

/-! ## Reconciliation -/

/-- `heroSMSSMSReconciliationCandidate`: an activation that may be the one of an order, as the
purchase it was. -/
def reconciliationCandidate (a : ActiveActivation) : Option Activation :=
  if h : 0 < a.cost then
    let requested := trimSpace o.operator
    let actual := trimSpace a.operator
    if trimSpace a.phoneNumber ≠ "" ∧ a.service = o.service ∧ a.countryCode = o.countryId ∧
        a.currencyCode = currencyCode ∧ a.cost ≤ o.providerPriceCNY ∧
        (requested = "" ∨ equalFold requested "any" ∨ actual = "" ∨ equalFold requested actual) ∧
        (a.time.all fun t => o.providerRequestStartedAt - 30 ≤ t) then
      some ⟨a.id, a.phoneNumber, a.cost, h, a.currencyCode, a.endTime⟩
    else none
  else none

/-- The activations that may be the one of an order and were not there before. -/
def candidates (l : List ActiveActivation) : List Activation :=
  (l.filter fun a => a.id ∉ o.knownIds).filterMap (reconciliationCandidate o)

/-- `reconcileHeroSMSSMSOrderWithProviderLeaseHeld` after the listing. -/
def listed (l : List ActiveActivation) : Option (Effect Db Unit Instr) :=
  match candidates o l with
  | [a] => goto db [.complete id a]
  | [] =>
    if unknownWindow ≤ db.now - o.providerRequestStartedAt then
      goto db [failOrder id "PROVIDER_NOT_FOUND" "provider purchase did not create an activation"]
    else goto db []
  | _ => goto (db.markAmbiguous id) []

/-- The work of a reconciliation on one order, by the status it was read with. -/
def reconcileOne (r : ℕ × Order) : Instr :=
  if r.2.status = .cancelPending then .reconcileCancellation r.2.userId r.1
  else if r.2.status = .active ∧ r.2.complaintStatus.needsReconciliation then
    .reconcileComplaint r.2.userId r.1
  else .reconcileOrder r.1

/-! ## Instructions -/

variable (env : Env)

/-- What an instruction does. -/
def sem : Instr → Answer → Db → Option (Effect Db Unit Instr)
  | .create user offerId key, a, db => guarded db (create env user offerId key db) a.granted
  | .checkOffer user hash payload quote multiplier, .offer tiers, db =>
    match priceOf db quote multiplier tiers with
    | .ok (cost, charge) => goto db [.recheck ⟨user, hash, payload, quote, multiplier, cost, charge⟩]
    | .error _ => goto db []
  | .recheck p, a, db => guarded db (recheck p db) a.granted
  | .checkOperator p, .operators names, db =>
    goto db (if names.any fun n => equalFold (trimSpace n) p.quote.operator then [.recheckOffer p]
      else [])
  | .recheckOffer p, .offer tiers, db =>
    goto db (if hasInventoryWithinPrice tiers p.cost then [.snapshot p] else [])
  | .snapshot p, .activations l, db =>
    goto db [.reserve p ((l.map ActiveActivation.id).filter (· ≠ ""))]
  | .snapshot _, .fail, db => goto db []
  | .checkOffer .., .error _, db | .checkOperator _, .error _, db | .recheckOffer _, .error _, db
  | .snapshot _, .error _, db => goto db []
  | .reserve p knownIds, .ok, db =>
    match db.reserve (p.order db.now knownIds) with
    | .ok (id, db') => goto db' [.markStarted id]
    | .error _ => goto db []
  | .reserve .., .abort, db => goto db []
  | .markStarted id, .ok, db => goto (db.markStarted id) [.purchase id]
  | .markStarted id, .abort, db =>
    goto db [.refund id .failed "INTERNAL_ERROR" "failed to persist provider request intent"
      [.pendingProvider]]
  | .purchase id, a, db => (purchased id a).bind (goto db)
  | .complete id act, a, db => complete id act db a
  | .reject id activationId e, .ok, db =>
    match db.reject id activationId e with
    | .ok db' => goto db' [.cancelRejected id]
    | .error _ => goto db []
  | .reject .., .abort, db => goto db []
  | .cancelRejected id, .ok, db => goto (db.acceptCancel id) []
  | .cancelRejected _, .error _, db | .cancelRejected _, .abort, db => goto db []
  | .refund id status code message expected, .ok, db =>
    goto ((db.refund id status code message expected).toOption.getD db) []
  | .refund .., .abort, db => goto db []
  | .refresh user id, a, db =>
    guarded db (match db.orderOf user id with
      | none => []
      | some o =>
        if o.status = .purchaseUnknown then [.reconcileOrder id]
        else if o.status = .active ∨ o.status = .cancelPending then [.refreshHeld user id]
        else []) a.granted
  | .refreshHeld user id, a, db => guarded db (refreshHeld user id db) a.granted
  | .expire user id, .ok, db =>
    goto ((db.claimCancel id user "ACTIVATION_EXPIRED" "activation expired before receiving a code"
      "activation expired; awaiting HeroSMS cancellation confirmation").getD db)
      [.finalizeClaimed user id]
  | .expire .., .abort, db => goto db []
  | .finalizeClaimed user id, a, db =>
    guarded db (match db.orderOf user id with
      | some o => if o.status = .cancelPending then [.finalize id o] else []
      | none => []) a.granted
  | .pollStatus id o, .status code, db =>
    goto db (if code ≠ "" then [.completeCode id o]
      else if o.providerExpiresAt = 0 then [.pollState id] else [])
  | .pollStatus .., .error _, db => goto db []
  | .pollState id, .state cancelled _, db =>
    goto db (if cancelled then
      [.refund id .cancelled "PROVIDER_CANCELLED"
        "HeroSMS cancelled the activation before a code arrived" [.active]] else [])
  | .pollState _, .error _, db => goto db []
  | .completeCode id o, .ok, db => goto ((db.completeCode id o .active).getD db) []
  | .completeCode .., .fail, db | .completeCode .., .abort, db => goto db []
  | .finalize id o, a, db => finalize id o db a
  | .finalizeStatus id o completed, .status code, db =>
    goto db [if code ≠ "" then .completePending id o completed else .cancelProvider id o completed]
  | .finalizeStatus .., .error _, db => goto db []
  | .completePending id o completed, .ok, db =>
    match db.completeCode id o .cancelPending with
    | some db' => goto db' []
    | none => goto db [.cancelProvider id o completed]
  | .completePending .., .fail, db | .completePending .., .abort, db => goto db []
  | .cancelProvider id o completed, a, db => cancelProvider id o completed db a
  | .cancel user id, a, db => guarded db (cancel user id db) a.granted
  | .claimCancel user id, .ok, db =>
    match db.claimCancel id user "USER_CANCELLED" "activation cancelled before receiving a code" ""
    with
    | some db' => goto db' [.finalizeClaimed user id]
    | none => goto db []
  | .claimCancel .., .abort, db => goto db []
  | .complain user id complaintType, a, db =>
    guarded db (match normalizeComplaintType complaintType with
      | some t => [.complainHeld user id t]
      | none => []) a.granted
  | .complainHeld user id complaintType, a, db => guarded db (complainHeld user id complaintType db) a.granted
  | .claimComplaint user id complaintType, .ok, db =>
    match db.claimComplaint id user complaintType with
    | some db' => goto db' [.submitComplaint id]
    | none => goto db []
  | .claimComplaint .., .abort, db => goto db []
  | .submitComplaint id, .ok, db => goto (db.recordComplaint id none) []
  | .submitComplaint id, .error e, db => goto (db.recordComplaint id (some e)) []
  | .submitComplaint _, .abort, db => goto db []
  | .reconcile limit, a, db => guarded db ((db.pendingOrders limit).map reconcileOne) a.granted
  | .reconcileOrder id, a, db =>
    guarded db (match db.orders.get? id with
      | some o => if o.status = .purchaseUnknown then [.listActive id o] else []
      | none => []) a.granted
  | .listActive id o, .activations l, db => listed id o db l
  | .listActive .., .error _, db | .listActive .., .fail, db => goto db []
  | .reconcileCancellation user id, a, db =>
    guarded db (match db.orderOf user id with
      | some o => if o.status = .cancelPending then [.finalize id o] else []
      | none => []) a.granted
  | .reconcileComplaint user id, a, db =>
    guarded db (match db.orderOf user id with
      | some o =>
        if o.status = .active ∧ o.complaintStatus.needsReconciliation then
          [.resubmit id o, .complaintChecked id]
        else []
      | none => []) a.granted
  | .resubmit id o, .ok, db => resubmit id o db none
  | .resubmit id o, .error e, db => resubmit id o db (some e)
  | .resubmit .., .abort, db => goto db []
  | .complaintState id o, .state cancelled _, db =>
    goto db [if cancelled then
        .refund id .cancelled "UPSTREAM_REFUND_CONFIRMED"
          "HeroSMS confirmed cancellation after the complaint" [.active]
      else .complaintStatus id o]
  | .complaintState .., .error _, db => goto db []
  | .complaintStatus id o, .status code, db =>
    goto db (if code ≠ "" then [.completeCode id o] else [])
  | .complaintStatus .., .error _, db => goto db []
  | .complaintChecked id, .ok, db => goto (db.complaintChecked id) []
  | .complaintChecked _, .abort, db => goto db []
  | _, _, _ => none

/-- The calls that start a process. -/
def Instr.isEntry : Instr → Bool
  | create .. | refresh .. | cancel .. | complain .. | reconcile .. => true
  | _ => false

/-- The steps of a run: of the processes, calls from outside, crashes, and changes of wallets,
settings and the clock by others. -/
def Admissible : Label Db Unit Instr Answer → Pool Db Unit Instr → Prop
  | .step _ _, _ => True
  | .start t, _ => ∃ i : Instr, t = ⟨(), [i]⟩ ∧ i.isEntry
  | .crash _, _ => True
  | .external db, p => db.orders = p.shared.orders ∧ db.ledger = p.shared.ledger

end LmmApi.HeroSms.Sms
