import LmmApi.HeroSms.Email.Statement
import LmmApi.Lib.Threads

/-!
# The processes on orders of e-mail addresses

`CreateHeroSMSEmailActivations`, `ReorderHeroSMSEmailActivation`, `RefreshHeroSMSEmailActivation`,
`CancelHeroSMSEmailActivation` and `RunHeroSMSEmailReconciliationOnce` run as threads over the
database. An instruction is one database statement or one call of the provider, with what the
process decides after it; a row that a process has read is an argument of the instructions that
still use it. A process may crash between any two instructions.

A process holds the lease of the provider from the instruction that acquires it, `acquire` or
`reconcileOrder`, to the instruction `release` behind what it does under the lease. What the
environment decides is the answer to an instruction: what the provider returns, whether the lease is
acquired, and whether the encryption, the configuration or the database fails. The views that the
functions return are left out.
-/

namespace LmmApi.HeroSms.Email

open Guarded Go Threads Option

/-- What the environment answers to an instruction. -/
inductive Answer
  | ok
  /-- The lease, the configuration or the encryption is not available. -/
  | fail
  /-- The statement fails in the database. -/
  | abort
  | error (e : ProviderError)
  | products (l : List Product)
  /-- The pages of `ListEmails`. -/
  | pages (l : List (List ListItem))
  /-- `SearchEmails`. -/
  | found (l : List ListItem)
  | record (r : Record)
  /-- `CreateEmailBatch`, with the number of items it says it has. -/
  | batch (items : List Record) (count : ℤ)

/-- A purchase that is being made. -/
structure Purchase where
  user : ℕ
  operation : Operation
  idempotencyHash : String
  payloadHash : String
  token : QuoteToken
  cost : ℚ
  quantity : ℕ
  chargeQuota : ℤ
  reorderProvider : Option String

/-- A request that waits for the quote of the provider. -/
structure Request where
  user : ℕ
  operation : Operation
  idempotencyHash : String
  payloadHash : String
  token : QuoteToken
  quotedCost : ℚ
  quantity : ℕ
  reorderProvider : Option String

inductive Instr
  | create (user : ℕ) (idempotencyKey domainId : String) (quantity : ℤ) (operation : Operation)
      (reorderOf : Option ℕ) (reorderProvider : Option String)
  | reorder (user aid : ℕ) (idempotencyKey domainId : String)
  | quote (r : Request)
  | acquire (p : Purchase)
  | snapshot (p : Purchase)
  | reserve (p : Purchase) (ids : List String)
  | markStarted (id : ℕ) (o : Order) (reorderProvider : Option String)
  | purchase (id : ℕ) (o : Order) (reorderProvider : Option String)
  | mismatch (id : ℕ) (items : List Record)
  | deleteBatch (id : ℕ) (items : List Record)
  | deleteItem (id : ℕ) (items : List Record)
  | finalize (id : ℕ) (o : Order) (records : List Record)
  | resolve (id : ℕ) (o : Order) (acts : List (ℕ × Activation)) (todo resolved : List Record)
  | detail (id : ℕ) (o : Order) (acts : List (ℕ × Activation)) (todo resolved : List Record)
  | prepare (id : ℕ) (o : Order) (todo : List ((ℕ × Activation) × Option Record))
      (prepared : List (ℕ × Db.Prepared))
  | commit (id : ℕ) (prepared : List (ℕ × Db.Prepared))
  | mark (id : ℕ) (status : OrderStatus) (code message : String)
  | fail (id : ℕ) (e : HeroError)
  | release
  | refresh (user aid : ℕ)
  | lookup (aid : ℕ) (a : Activation)
  | getEmail (aid : ℕ) (a : Activation)
  | persist (aid : ℕ) (a : Activation) (r : Record)
  | cancel (user aid : ℕ)
  | claimCancel (user aid orderId : ℕ)
  | deleteCancelled (user aid orderId : ℕ)
  | confirmCancel (user aid orderId : ℕ)
  | reconcile (limit : ℤ)
  | reconcileOrder (id : ℕ) (o : Order)
  | unknownOrder (id : ℕ) (o : Order)
  | listUnknown (id : ℕ) (o : Order)
  | deleteCandidates (id : ℕ) (candidates : List ListItem)
  | details (id : ℕ) (o : Order) (candidates : List ListItem) (records : List Record)
  | touchOrder (id : ℕ)
  | reconcileActivations (limit : ℕ)
  | deleteActivation (aid : ℕ) (a : Activation)
  | compensate (aid orderId : ℕ)
  | touchActivation (aid : ℕ)

/-- Whether the answer grants what an instruction that only reads asks for. -/
def Answer.granted : Answer → Option Bool
  | .ok => some true
  | .fail | .abort => some false
  | _ => none

/-- A call whose error ends the process, unless the address was not there. -/
def deleted (db : Db) (next : List Instr) : Answer → Option (Effect Db Unit Instr)
  | .ok | .error .notFound => goto db next
  | .error _ | .fail => goto db []
  | _ => none

/-- A transaction after which the process ends. -/
def transact (db : Db) (result : Except Failure Db) : Answer → Option (Effect Db Unit Instr)
  | .ok => goto (result.toOption.getD db) []
  | .fail | .abort => goto db []
  | _ => none

/-! ## Creation -/

variable (env : Env)

/-- `decodeHeroSMSQuoteID`. -/
def decodeQuoteID (value : String) : Option QuoteToken := do
  let token ← env.decodeQuote value
  let site ← normalizeName token.site
  let domain ← normalizeName token.domain
  return { token with site, domain }

variable (db : Db) (id : ℕ)

/-- The part of `lookupHeroSMSDomainQuote` before the call of the provider: the token and its cost.
-/
def checkQuote (domainId : String) : Option (QuoteToken × ℚ) := do
  let token ← decodeQuoteID env domainId
  guard (token.issuedAt ≤ db.unix + 60 ∧ db.unix - token.issuedAt ≤ 5 * 60)
  let cost ← token.cost.filter fun c => 0 ≤ c
  let multiplier ← token.multiplier.filter fun m => 0 < m
  guard (db.settings.multiplier ≠ 0 ∧ (db.settings.multiplier : ℚ) = multiplier)
  return (token, cost)

/-- `createHeroSMSEmailOrder` up to the call of the provider. -/
def create (user : ℕ) (idempotencyKey domainId : String) (quantity : ℤ)
    (operation : Operation) (reorderOf : Option ℕ) (reorderProvider : Option String) : List Instr :=
  let key := trimSpace idempotencyKey
  if key = "" ∨ 128 < len key ∨ trimSpace domainId = "" ∨ quantity < 1 ∨ 10 < quantity then []
  else
    let payload := env.sha256Hex (env.marshalRequest operation domainId quantity reorderOf)
    let hash := env.sha256Hex (toString user ++ ":" ++ operation.text ++ ":" ++ key)
    match db.replay user operation hash payload, checkQuote env db domainId with
    | .missed, some (token, cost) =>
      [.quote ⟨user, operation, hash, payload, token, cost, quantity.toNat, reorderProvider⟩]
    | _, _ => []

/-- An activation that can be ordered again. -/
def Status.Reorderable (s : Status) : Prop :=
  s = .completed ∨ s = .cancelled ∨ s = .expired ∨ s = .refunded
  deriving Decidable

/-- `ReorderHeroSMSEmailActivation`. -/
def reorder (db : Db) (user aid : ℕ) (idempotencyKey domainId : String) : List Instr :=
  let key := trimSpace idempotencyKey
  let domainId := trimSpace domainId
  if key = "" ∨ 128 < len key ∨ domainId = "" then []
  else
    let payload := env.sha256Hex (env.marshalRequest .reorder domainId 1 (some aid))
    let hash := env.sha256Hex (toString user ++ ":" ++ Operation.reorder.text ++ ":" ++ key)
    match db.replay user .reorder hash payload, db.activationOf user aid, decodeQuoteID env domainId with
    | .missed, some a, some token =>
      if a.status.Reorderable ∧ trimSpace (a.providerId.getD "") ≠ "" ∧ token.site = a.site ∧
          token.domain = a.domain then
        [.create user idempotencyKey domainId 1 .reorder (some aid) a.providerId]
      else []
    | _, _, _ => []

/-- The rest of `lookupHeroSMSDomainQuote` and the price of a purchase. -/
def priced (r : Request) (products : List Product) : Option Purchase := do
  let product ← products.find? fun p => normalizeName p.name = some r.token.domain ∧ 0 < p.count
  guard (product.cost = r.quotedCost)
  guard ((r.quantity : ℤ) ≤ product.count)
  let multiplier ← db.settings.multiplierDecimal.toOption
  let charge ← (db.settings.chargeQuota (product.cost * multiplier * r.quantity)).toOption
  return ⟨r.user, r.operation, r.idempotencyHash, r.payloadHash, r.token, product.cost, r.quantity,
    charge, r.reorderProvider⟩

/-- The order that a purchase reserves. -/
def Purchase.order (p : Purchase) (now : ℤ) (ids : List String) : Order where
  userId := p.user
  operation := p.operation
  idempotencyKeyHash := p.idempotencyHash
  requestPayloadHash := p.payloadHash
  site := p.token.site
  domain := p.token.domain
  quantity := p.quantity
  status := .pendingProvider
  reservedUnitCost := p.cost
  chargeQuota := p.chargeQuota
  lastErrorCode := "PROVIDER_INTENT_PENDING"
  lastErrorMessage := "provider purchase intent is reserved but not started"
  snapshot := ids
  updatedAt := now

/-- The activations that a purchase reserves, without the id of their order. -/
def Purchase.slots (p : Purchase) (now : ℤ) : List Activation :=
  (List.range p.quantity).map fun slot =>
    { orderId := 0
      userId := p.user
      slot := slot + 1
      status := .pendingProvider
      site := p.token.site
      domain := p.token.domain
      chargeQuota := quotaForSlot p.chargeQuota p.quantity (slot + 1)
      updatedAt := now }

/-- The ids of `captureHeroSMSProviderSnapshot`. -/
def snapshotIds (pages : List (List ListItem)) : List String :=
  ((collect (pages.take 10) []).map ListItem.id).insertionSort (· ≤ ·)

def pendingReconciliation (status : OrderStatus) (message : String) : Instr :=
  .mark id status "PURCHASE_PENDING_RECONCILIATION" message

/-- `handleHeroSMSPurchaseProviderError`. -/
def purchaseError (e : ProviderError) : Instr :=
  let mapped := mapProviderError e
  if mapped.code ∈ ["UPSTREAM_TIMEOUT", "UPSTREAM_BUSY", "BAD_UPSTREAM_RESPONSE"] then
    pendingReconciliation id .purchaseUnknown "purchase outcome requires provider reconciliation"
  else .fail id mapped

def badBatch : HeroError :=
  ⟨502, "BAD_UPSTREAM_RESPONSE", "HeroSMS returned an unexpected batch count"⟩

/-- The call of the provider that buys, and what follows it. -/
def purchased (o : Order) (reorderProvider : Option String) : Answer → Option (List Instr)
  | .ok => if o.operation = .reorder ∧ trimSpace (reorderProvider.getD "") = "" then some [] else none
  | .record r => if o.operation = .reorder ∨ o.quantity = 1 then some [.finalize id o [r]] else none
  | .batch items count =>
    if o.operation = .reorder ∨ o.quantity = 1 then none
    else if items.length = o.quantity ∧ count = o.quantity then some [.finalize id o items]
    else some [.mismatch id items]
  | .error e => some [purchaseError id e]
  | _ => none

/-! ## The outcome of a purchase -/

/-- Why a purchased address is given back. -/
def rejection (o : Order) (r : Record) : Option CancelReason :=
  if trimSpace r.email = "" ∨ trimSpace r.id = "" then some .badUpstream
  else if r.currencyCode ≠ currencyCode then some .currencyMismatch
  else if o.reservedUnitCost < r.cost then some .priceChanged
  else none

/-- What `finalizeHeroSMSKnownPurchase` prepares for an activation, where `cancelled` tells whether
the provider has cancelled an address that is given back. -/
def prepareSlot (o : Order) (a : Activation) (r : Record) (cancelled : Bool) : Db.Prepared :=
  let item : Db.Prepared :=
    { providerId := if r.id = "" then none else some r.id, email := stored r.email }
  if a.status = .cancelPending ∧ a.cancelReason = some .user then
    { item with status := .cancelPending, cancelReason := some .user }
  else match rejection o r with
    | none =>
      { item with
        status := if trimSpace r.code ≠ "" ∨ trimSpace r.message ≠ "" then .completed else .active }
    | some reason =>
      { item with
        cancelReason := some reason
        refundQuota := a.chargeQuota
        status :=
          if r.id = "" then .reconciling else if cancelled then .refunded else .cancelPending }

/-- The records of `finalizeHeroSMSKnownPurchase`: one without an id is looked for by its address.
-/
def resolve (db : Db) (id : ℕ) (o : Order) (acts : List (ℕ × Activation)) (resolved : List Record) :
    List Record → Answer → Option (Effect Db Unit Instr)
  | [], .ok => goto db [.prepare id o (acts.zipIdx.map fun x => (x.1, resolved[x.2]?)) []]
  | r :: todo, a =>
    if r.id = "" ∧ trimSpace r.email ≠ "" then
      match a with
      | .found l =>
        match findByExactAddress r.email l with
        | some item =>
          if trimSpace item.id = "" then goto db [.resolve id o acts todo (resolved ++ [r])]
          else goto db [.detail id o acts todo resolved]
        | none => goto db [.resolve id o acts todo (resolved ++ [r])]
      | .error _ =>
        goto db [pendingReconciliation id .reconciling "purchase requires provider reconciliation"]
      | _ => none
    else if a matches .ok then goto db [.resolve id o acts todo (resolved ++ [r])]
    else none
  | _, _ => none

/-- The preparation of the activations, one after the other. -/
def prepare (db : Db) (id : ℕ) (o : Order) (prepared : List (ℕ × Db.Prepared)) :
    List ((ℕ × Activation) × Option Record) → Answer → Option (Effect Db Unit Instr)
  | [], .ok => goto db [.commit id prepared]
  | ((aid, _), none) :: todo, .ok => goto db [.prepare id o todo (prepared ++ [(aid, {})])]
  | ((aid, a), some r) :: todo, .ok =>
    goto db [.prepare id o todo (prepared ++ [(aid, prepareSlot o a r true)])]
  | ((aid, a), some r) :: todo, .error _ =>
    goto db [.prepare id o todo (prepared ++ [(aid, prepareSlot o a r false)])]
  | (_, some _) :: _, .fail =>
    goto db [.mark id .reconciling "ENCRYPTION_UNAVAILABLE" "purchase data could not be persisted"]
  | _, _ => none

/-- `handleHeroSMSBatchCountMismatch` after the mark. -/
def deleteBatch (db : Db) (id : ℕ) : List Record → Answer → Option (Effect Db Unit Instr)
  | [], .ok => goto db [.fail id badBatch]
  | r :: items, a =>
    if trimSpace r.id ≠ "" then deleted db [.deleteBatch id items] a
    else if trimSpace r.email ≠ "" then
      match a with
      | .found l =>
        match findByExactAddress r.email l with
        | some item => goto db (if trimSpace item.id = "" then [] else [.deleteItem id items])
        | none => goto db []
      | .error _ => goto db []
      | _ => none
    else if a matches .ok then goto db []
    else none
  | _, _ => none

/-! ## Reconciliation -/

/-- The addresses that may be those of an order and were not there before. -/
def potential (o : Order) (items : List ListItem) : List ListItem :=
  items.filter fun i => i.id ∉ o.snapshot ∧ (i.site = "" ∨ equalFold (trimSpace i.site) o.site) ∧
    hasSuffix (toLower (trimSpace i.email)) ("@" ++ toLower o.domain)

/-- Those that are not the addresses of other orders, by id. -/
def candidates (o : Order) (pages : List (List ListItem)) : List ListItem :=
  ((potential o (collect (pages.take 10) [])).filter fun i =>
    ¬ db.activations.table.Any fun _ a => a.providerId = some i.id ∧ a.orderId ≠ id).insertionSort
    fun i j => i.id ≤ j.id

def intentAborted : HeroError := ⟨503, "PROVIDER_INTENT_ABORTED", "provider purchase did not start"⟩

/-- `reconcileHeroSMSUnknownOrder` up to the listing, with the order as it was read before. -/
def unknownOrder (o : Order) : List Instr :=
  if o.status = .pendingProvider ∧ o.lastErrorCode = "PROVIDER_INTENT_PENDING" then
    [.fail id intentAborted]
  else if (db.activationsOf id).any fun r => r.2.providerId ≠ none ∨ trimSpace r.2.email ≠ "" then []
  else [.listUnknown id o]

/-- `reconcileHeroSMSUnknownOrder` after the listing. -/
def listed (o : Order) (pages : List (List ListItem)) : List Instr :=
  let found := candidates db id o pages
  if found.length = o.quantity then [.details id o found []]
  else if o.lastErrorCode = "BATCH_COUNT_MISMATCH" then [.deleteCandidates id found]
  else []

/-- `reconcileHeroSMSEmailActivation` up to the record of the provider: an activation without a
provider id is looked for by its address. -/
def lookup (aid : ℕ) (x : Activation) : Answer → Option (List Instr)
  | .ok =>
    if trimSpace (x.providerId.getD "") ≠ "" then some [.getEmail aid x]
    else if trimSpace x.email = "" then some []
    else none
  | .found l =>
    if trimSpace (x.providerId.getD "") ≠ "" then none
    else match findByExactAddress x.email l with
      | some item => some (if trimSpace item.id = "" then [] else [.getEmail aid x])
      | none => some []
  | .error _ | .fail => some []
  | _ => none

/-- The work of a reconciliation on one activation, by the status it was read with. -/
def reconcileOne (r : ℕ × Activation) : List Instr :=
  [if r.2.status = .cancelPending ∧ trimSpace (r.2.providerId.getD "") ≠ "" then
    .deleteActivation r.1 r.2
  else .lookup r.1 r.2, .touchActivation r.1]

/-- `RunHeroSMSEmailReconciliationOnce`. -/
def reconcile (limit : ℤ) : List Instr :=
  let limit := Db.effectiveLimit limit
  let orders := db.pendingOrders (Db.orderLimit limit)
  orders.map (fun r => .reconcileOrder r.1 r.2) ++
    if orders.length < limit then [.reconcileActivations (limit - orders.length)] else []

/-! ## Instructions -/

/-- What an instruction does. -/
def sem : Instr → Answer → Db → Option (Effect Db Unit Instr)
  | .create user key domainId quantity operation reorderOf provider, a, db =>
    guarded db (create env db user key domainId quantity operation reorderOf provider) a.granted
  | .reorder user aid key domainId, a, db => guarded db (reorder env db user aid key domainId) a.granted
  | .quote r, .products l, db =>
    goto db (match priced db r l with
      | some p => [.acquire p]
      | none => [])
  | .quote _, .error _, db => goto db []
  | .acquire p, a, db => guarded db [.snapshot p, .release] a.granted
  | .snapshot p, .pages l, db => goto db [.reserve p (snapshotIds l)]
  | .snapshot _, .error _, db | .snapshot _, .fail, db => goto db []
  | .reserve p ids, .ok, db =>
    match db.reserve (p.order db.unix ids) (p.slots db.unix) with
    | .ok (id, db') => goto db' [.markStarted id (p.order db.unix ids) p.reorderProvider]
    | .error _ => goto db []
  | .reserve .., .abort, db => goto db []
  | .markStarted id o provider, .ok, db =>
    goto (db.mark id .purchaseUnknown "PROVIDER_ATTEMPT_STARTED"
      "provider purchase attempt may have started") [.purchase id o provider]
  | .markStarted id _ _, .abort, db =>
    goto db [.fail id ⟨500, "INTERNAL_ERROR", "failed to persist provider request intent"⟩]
  | .purchase id o provider, a, db => (purchased id o provider a).bind (goto db)
  | .mismatch id items, .ok, db =>
    goto (db.mark id .purchaseUnknown "BATCH_COUNT_MISMATCH"
      "provider batch count requires compensation") [.deleteBatch id items]
  | .mismatch .., .abort, db => goto db []
  | .deleteBatch id items, a, db => deleteBatch db id items a
  | .deleteItem id items, a, db => deleted db [.deleteBatch id items] a
  | .finalize id o records, a, db => guarded db [.resolve id o (db.activationsOf id) records []] a.granted
  | .resolve id o acts todo resolved, a, db => resolve db id o acts resolved todo a
  | .detail id o acts todo resolved, .record r, db =>
    goto db [.resolve id o acts todo (resolved ++ [r])]
  | .detail id .., .error _, db =>
    goto db [pendingReconciliation id .reconciling "purchase requires provider reconciliation"]
  | .prepare id o todo prepared, a, db => prepare db id o prepared todo a
  | .commit id prepared, .ok, db =>
    match db.finalize id prepared with
    | .ok db' => goto db' []
    | .error _ => goto db [pendingReconciliation id .purchaseUnknown
        "purchase outcome requires provider reconciliation"]
  | .commit id _, .abort, db => goto db [pendingReconciliation id .purchaseUnknown
      "purchase outcome requires provider reconciliation"]
  | .mark id status code message, a, db => transact db (.ok (db.mark id status code message)) a
  | .fail id e, a, db => transact db (db.fail id e) a
  | .release, .ok, db => goto db []
  | .refresh user aid, a, db =>
    guarded db (match db.activationOf user aid with
      | none => []
      | some x => if trimSpace (x.providerId.getD "") = "" then [.lookup aid x] else [.getEmail aid x]) a.granted
  | .lookup aid x, a, db => (lookup aid x a).bind (goto db)
  | .getEmail aid x, .record r, db => goto db [.persist aid x r]
  | .getEmail .., .error _, db => goto db []
  | .persist aid x r, a, db => transact db (db.persist aid x r) a
  | .cancel user aid, a, db =>
    guarded db (match db.activationOf user aid with
      | none => []
      | some x => [.claimCancel user aid x.orderId]) a.granted
  | .claimCancel user aid orderId, .ok, db =>
    match db.claimCancel user aid orderId with
    | .ok (provider, db') => goto db' (if provider = "" then [] else [.deleteCancelled user aid orderId])
    | .error _ => goto db []
  | .claimCancel .., .abort, db => goto db []
  | .deleteCancelled user aid orderId, a, db => deleted db [.confirmCancel user aid orderId] a
  | .confirmCancel user aid orderId, a, db => transact db (db.confirmCancel user aid orderId) a
  | .reconcile limit, a, db => guarded db (reconcile db limit) a.granted
  | .reconcileOrder id o, a, db => guarded db [.unknownOrder id o, .release, .touchOrder id] a.granted
  | .unknownOrder id o, a, db => guarded db (unknownOrder db id o) a.granted
  | .listUnknown id o, .pages l, db => goto db (listed db id o l)
  | .listUnknown .., .error _, db | .listUnknown .., .fail, db => goto db []
  | .deleteCandidates id (_ :: l), a, db => deleted db [.deleteCandidates id l] a
  | .deleteCandidates id [], .ok, db => goto db [.fail id badBatch]
  | .details id o (_ :: l) records, .record r, db => goto db [.details id o l (records ++ [r])]
  | .details _ _ (_ :: _) _, .error _, db => goto db []
  | .details id o [] records, .ok, db => goto db [.finalize id o records]
  | .touchOrder id, a, db => transact db (.ok (db.touchOrder id)) a
  | .reconcileActivations limit, a, db =>
    guarded db ((db.pendingActivations limit).flatMap reconcileOne) a.granted
  | .deleteActivation aid x, a, db => deleted db [.compensate aid x.orderId] a
  | .compensate aid orderId, a, db => transact db (db.compensate aid orderId) a
  | .touchActivation aid, a, db => transact db (.ok (db.touchActivation aid)) a
  | _, _, _ => none

/-- The calls that start a process. -/
def Instr.isEntry : Instr → Bool
  | create _ _ _ _ .purchase none none => true
  | reorder .. | refresh .. | cancel .. | reconcile .. => true
  | _ => false

/-- The steps of a run: of the processes, calls from outside, crashes, and changes of wallets,
settings and the clock by others. -/
def Admissible : Label Db Unit Instr Answer → Pool Db Unit Instr → Prop
  | .step _ _, _ => True
  | .start t, _ => ∃ i : Instr, t = ⟨(), [i]⟩ ∧ i.isEntry
  | .crash _, _ => True
  | .external db, p => db.orders = p.shared.orders ∧ db.activations = p.shared.activations ∧
    db.ledger = p.shared.ledger

/-! ## Steps -/

section Steps

variable (db : Db) (a : Answer)

/-- **What an instruction can do** with the answer `a`. One that fails, or that the environment does
not answer as it should, ends its process unless a case says what it leads to. -/
inductive Leaves : Instr → Effect Db Unit Instr → Prop
  | stop : Leaves i ⟨db, [], []⟩
  | create (r : Request) (hcost : 0 ≤ r.quotedCost) (hquantity : 1 ≤ r.quantity) :
      Leaves (.create user key domainId quantity operation reorderOf provider) ⟨db, [.quote r], []⟩
  | reorder : Leaves (.reorder user aid key domainId)
      ⟨db, [.create user key (trimSpace domainId) 1 .reorder (some aid) provider], []⟩
  | quote (h : priced db r l = some p) : Leaves (.quote r) ⟨db, [.acquire p], []⟩
  | acquire (ha : a = .ok) : Leaves (.acquire p) ⟨db, [.snapshot p, .release], []⟩
  | snapshot : Leaves (.snapshot p) ⟨db, [.reserve p ids], []⟩
  | reserve (p : Purchase) (ids : List String)
      (h : db.reserve (p.order db.unix ids) (p.slots db.unix) = .ok (k, db')) :
      Leaves (.reserve p ids) ⟨db', [.markStarted k (p.order db.unix ids) p.reorderProvider], []⟩
  | markStarted : Leaves (.markStarted k o provider)
      ⟨db.mark k .purchaseUnknown "PROVIDER_ATTEMPT_STARTED"
        "provider purchase attempt may have started", [.purchase k o provider], []⟩
  | notStarted : Leaves (.markStarted k o provider) ⟨db, [.fail k err], []⟩
  | purchase : Leaves (.purchase k o provider) ⟨db, [.finalize k o records], []⟩
  | purchaseMismatch : Leaves (.purchase k o provider) ⟨db, [.mismatch k items], []⟩
  | purchaseError : Leaves (.purchase k o provider) ⟨db, [purchaseError k err], []⟩
  | mismatch : Leaves (.mismatch k items) ⟨db.mark k .purchaseUnknown "BATCH_COUNT_MISMATCH"
      "provider batch count requires compensation", [.deleteBatch k items], []⟩
  | deleteBatch : Leaves (.deleteBatch k items) ⟨db, [.deleteBatch k rest], []⟩
  | deleteFound : Leaves (.deleteBatch k items) ⟨db, [.deleteItem k rest], []⟩
  | batchDeleted : Leaves (.deleteBatch k items) ⟨db, [.fail k badBatch], []⟩
  | deleteItem : Leaves (.deleteItem k items) ⟨db, [.deleteBatch k items], []⟩
  | finalize : Leaves (.finalize k o records)
      ⟨db, [.resolve k o (db.activationsOf k) records []], []⟩
  | resolve : Leaves (.resolve k o acts (r :: todo) resolved)
      ⟨db, [.resolve k o acts todo (resolved ++ [r])], []⟩
  | resolveFound : Leaves (.resolve k o acts (r :: todo) resolved)
      ⟨db, [.detail k o acts todo resolved], []⟩
  | resolveFailed : Leaves (.resolve k o acts todo resolved)
      ⟨db, [pendingReconciliation k .reconciling message], []⟩
  | resolved : Leaves (.resolve k o acts [] resolved)
      ⟨db, [.prepare k o (acts.zipIdx.map fun x => (x.1, resolved[x.2]?)) []], []⟩
  | detail : Leaves (.detail k o acts todo resolved)
      ⟨db, [.resolve k o acts todo (resolved ++ [r])], []⟩
  | detailFailed : Leaves (.detail k o acts todo resolved)
      ⟨db, [pendingReconciliation k .reconciling message], []⟩
  | prepare (x : (ℕ × Activation) × Option Record)
      (h : item = {} ∨ ∃ r cancelled, item = prepareSlot o x.1.2 r cancelled) :
      Leaves (.prepare k o (x :: todo) prepared)
        ⟨db, [.prepare k o todo (prepared ++ [(x.1.1, item)])], []⟩
  | prepareFailed : Leaves (.prepare k o todo prepared)
      ⟨db, [.mark k .reconciling code message], []⟩
  | prepared : Leaves (.prepare k o [] prepared) ⟨db, [.commit k prepared], []⟩
  | commit (h : db.finalize k prepared = .ok db') : Leaves (.commit k prepared) ⟨db', [], []⟩
  | commitFailed : Leaves (.commit k prepared)
      ⟨db, [pendingReconciliation k .purchaseUnknown message], []⟩
  | mark : Leaves (.mark k status code message) ⟨db.mark k status code message, [], []⟩
  | fail (h : db.fail k err = .ok db') : Leaves (.fail k err) ⟨db', [], []⟩
  | refresh (h : db.activationOf user aid = some x) :
      Leaves (.refresh user aid) ⟨db, [.lookup aid x], []⟩
  | refreshKnown (x : Activation) (h : db.activationOf user aid = some x)
      (hprovider : trimSpace (x.providerId.getD "") ≠ "") :
      Leaves (.refresh user aid) ⟨db, [.getEmail aid x], []⟩
  | lookup (h : ¬ Db.UnknownProvider x) : Leaves (.lookup aid x) ⟨db, [.getEmail aid x], []⟩
  | getEmail : Leaves (.getEmail aid x) ⟨db, [.persist aid x r], []⟩
  | persist (h : db.persist aid x r = .ok db') : Leaves (.persist aid x r) ⟨db', [], []⟩
  | cancel (x : Activation) (h : db.activationOf user aid = some x) :
      Leaves (.cancel user aid) ⟨db, [.claimCancel user aid x.orderId], []⟩
  | claimCancel (h : db.claimCancel user aid k = .ok (provider, db')) :
      Leaves (.claimCancel user aid k)
        ⟨db', if provider = "" then [] else [.deleteCancelled user aid k], []⟩
  | deleteCancelled : Leaves (.deleteCancelled user aid k) ⟨db, [.confirmCancel user aid k], []⟩
  | confirmCancel (h : db.confirmCancel user aid k = .ok db') :
      Leaves (.confirmCancel user aid k) ⟨db', [], []⟩
  | reconcile : Leaves (.reconcile limit) ⟨db, reconcile db limit, []⟩
  | reconcileOrder (ha : a = .ok) : Leaves (.reconcileOrder k o)
      ⟨db, [.unknownOrder k o, .release, .touchOrder k], []⟩
  | unknownOrder : Leaves (.unknownOrder k o) ⟨db, [.listUnknown k o], []⟩
  | intentAborted (h : o.status = .pendingProvider) :
      Leaves (.unknownOrder k o) ⟨db, [.fail k intentAborted], []⟩
  | listed (ha : a = .pages l) (h : (candidates db k o l).length = o.quantity) :
      Leaves (.listUnknown k o) ⟨db, [.details k o (candidates db k o l) []], []⟩
  | listedMismatch (ha : a = .pages l) (h : o.lastErrorCode = "BATCH_COUNT_MISMATCH") :
      Leaves (.listUnknown k o) ⟨db, [.deleteCandidates k (candidates db k o l)], []⟩
  | deleteCandidates : Leaves (.deleteCandidates k (c :: l)) ⟨db, [.deleteCandidates k l], []⟩
  | candidatesDeleted : Leaves (.deleteCandidates k []) ⟨db, [.fail k badBatch], []⟩
  | details : Leaves (.details k o (c :: l) records) ⟨db, [.details k o l (records ++ [r])], []⟩
  | detailed : Leaves (.details k o [] records) ⟨db, [.finalize k o records], []⟩
  | touchOrder : Leaves (.touchOrder k) ⟨db.touchOrder k, [], []⟩
  | reconcileActivations : Leaves (.reconcileActivations n)
      ⟨db, (db.pendingActivations n).flatMap reconcileOne, []⟩
  | deleteActivation (x : Activation) : Leaves (.deleteActivation aid x) ⟨db, [.compensate aid x.orderId], []⟩
  | compensate (h : db.compensate aid k = .ok db') : Leaves (.compensate aid k) ⟨db', [], []⟩
  | touchActivation : Leaves (.touchActivation aid) ⟨db.touchActivation aid, [], []⟩

end Steps

variable {env} {db db' : Db} {id aid : ℕ} {o : Order} {x : Activation} {i : Instr} {a : Answer}
  {e : Effect Db Unit Instr} {next : List Instr} {provider : Option String}

theorem checkQuote_nonneg {domainId : String} {token : QuoteToken} {cost : ℚ}
    (h : checkQuote env db domainId = some (token, cost)) : 0 ≤ cost := by
  simp only [checkQuote, bind_eq_bind, bind_eq_some_iff, filter_eq_some_iff,
    decide_eq_true_eq, pure_def, some.injEq, Prod.mk.injEq] at h
  obtain ⟨_, -, _, -, _, ⟨-, hcost⟩, _, -, _, -, -, rfl⟩ := h
  exact hcost

theorem Leaves.of_goto (h : goto db' next = some e) (hl : Leaves db a i ⟨db', next, []⟩) :
    Leaves db a i e :=
  some.inj h ▸ hl

theorem Leaves.of_guarded (h : guarded db next a.granted = some e)
    (hl : a = .ok → Leaves db a i ⟨db, next, []⟩) : Leaves db a i e := by
  obtain ⟨hgra, h⟩ | h := guarded_eq_some h
  · cases a <;> cases hgra
    exact .of_goto h (hl rfl)
  · exact .of_goto h .stop

theorem Leaves.of_deleted (h : deleted db next a = some e) (hl : Leaves db a i ⟨db, next, []⟩) :
    Leaves db a i e := by
  unfold deleted at h
  split at h
  · exact .of_goto h hl
  · exact .of_goto h hl
  · exact .of_goto h .stop
  · exact .of_goto h .stop
  · cases h

theorem Leaves.of_transact {result : Except Failure Db} (h : transact db result a = some e)
    (hl : ∀ db', result = .ok db' → Leaves db a i ⟨db', [], []⟩) : Leaves db a i e := by
  unfold transact at h
  split at h
  · obtain hs | hok := getD_cases result db
    · exact .of_goto (hs ▸ h) .stop
    · exact .of_goto h (hl _ hok)
  · exact .of_goto h .stop
  · exact .of_goto h .stop
  · cases h

theorem create_leaves (env : Env) (user : ℕ) (key domainId : String) (quantity : ℤ)
    (operation : Operation) (reorderOf : Option ℕ) (provider : Option String) :
    Leaves db a (.create user key domainId quantity operation reorderOf provider)
      ⟨db, create env db user key domainId quantity operation reorderOf provider, []⟩ := by
  unfold create
  dsimp only
  split
  · exact .stop
  case isFalse hval =>
    split
    case h_2 => exact .stop
    case h_1 token cost _ hquo =>
      simp only [not_or, not_lt] at hval
      refine .create _ (checkQuote_nonneg hquo) ?_
      dsimp only
      omega

theorem lookup_leaves (h : (lookup aid x a).bind (goto db) = some e) :
    Leaves db a (.lookup aid x) e := by
  obtain ⟨next, hn, h⟩ := bind_eq_some_iff.1 h
  by_cases hunk : Db.UnknownProvider x
  · have hbla : trimSpace (x.providerId.getD "") = "" := by
      rw [hunk.1]
      rfl
    obtain rfl : next = [] := by
      cases a <;> simp [lookup, hbla, hunk.2, findByExactAddress] at hn <;> exact hn
    exact .of_goto h .stop
  · unfold lookup at hn
    repeat' split at hn
    all_goals cases hn <;> cases h <;> first | exact .stop | exact .lookup hunk

/-- Every instruction does what `Leaves` says. -/
theorem sem_leaves (h : sem env i a db = some e) : Leaves db a i e := by
  cases i
  case create => exact .of_guarded h fun _ => create_leaves ..
  case purchase =>
    obtain ⟨_, hn, h⟩ := bind_eq_some_iff.1 h
    unfold purchased at hn
    repeat' split at hn
    all_goals cases hn <;> cases h <;> constructor
  case deleteBatch =>
    simp only [sem, deleteBatch] at h
    split at h
    · exact .of_goto h .batchDeleted
    · split at h
      · exact .of_deleted h .deleteBatch
      · repeat' split at h
        all_goals cases h <;> constructor
    · cases h
  case resolve =>
    simp only [sem, resolve] at h
    repeat' split at h
    all_goals cases h <;> constructor
  case prepare =>
    simp only [sem, prepare] at h
    split at h
    · exact .of_goto h .prepared
    · exact .of_goto h (.prepare _ (.inl rfl))
    · exact .of_goto h (.prepare _ (.inr ⟨_, true, rfl⟩))
    · exact .of_goto h (.prepare _ (.inr ⟨_, false, rfl⟩))
    · exact .of_goto h .prepareFailed
    · cases h
  case lookup => exact lookup_leaves h
  case acquire => exact .of_guarded h .acquire
  case reconcileOrder => exact .of_guarded h .reconcileOrder
  case finalize | reconcile | reconcileActivations => exact .of_guarded h fun _ => by constructor
  case deleteItem | deleteCancelled | deleteActivation => exact .of_deleted h (by constructor)
  case fail => exact .of_transact h fun _ => .fail
  case persist => exact .of_transact h fun _ => .persist
  case confirmCancel => exact .of_transact h fun _ => .confirmCancel
  case compensate => exact .of_transact h fun _ => .compensate
  case mark | touchOrder | touchActivation =>
    refine .of_transact h fun db' hok => ?_
    cases hok
    constructor
  case reorder =>
    refine .of_guarded h fun _ => ?_
    unfold reorder
    dsimp only
    repeat' split
    all_goals constructor
  case refresh =>
    refine .of_guarded h fun _ => ?_
    split
    · exact .stop
    case h_2 x hx =>
      split
      · exact .refresh hx
      case isFalse hpv => exact .refreshKnown x hx hpv
  case cancel =>
    refine .of_guarded h fun _ => ?_
    split
    · exact .stop
    case h_2 x hx => exact .cancel x hx
  case unknownOrder =>
    refine .of_guarded h fun _ => ?_
    unfold unknownOrder
    split
    case isTrue hint => exact .intentAborted hint.1
    case isFalse => split <;> constructor
  case deleteCandidates id l =>
    cases l with
    | nil =>
      cases a <;> simp only [sem, reduceCtorEq] at h
      case ok => exact .of_goto h .candidatesDeleted
    | cons c l => exact .of_deleted h .deleteCandidates
  case details id o l records =>
    cases l <;> cases a <;> simp only [sem, reduceCtorEq] at h <;> cases h <;> constructor
  -- The others depend on the answer, and end with most of them.
  all_goals cases a <;> simp only [sem, reduceCtorEq] at h <;> try exact .of_goto h .stop
  case quote.products =>
    refine .of_goto h ?_
    split
    case h_1 hpri => exact .quote hpri
    case h_2 => exact .stop
  case reserve.ok =>
    split at h
    case h_1 hrsv => exact .of_goto h (.reserve _ _ hrsv)
    case h_2 => exact .of_goto h .stop
  case commit.ok =>
    split at h
    case h_1 hfin => exact .of_goto h (.commit hfin)
    case h_2 => exact .of_goto h .commitFailed
  case commit.abort => exact .of_goto h .commitFailed
  case claimCancel.ok =>
    split at h
    case h_1 hcla => exact .of_goto h (.claimCancel hcla)
    case h_2 => exact .of_goto h .stop
  case listUnknown.pages =>
    refine .of_goto h ?_
    unfold listed
    dsimp only
    split
    case isTrue hlen => exact .listed rfl hlen
    case isFalse =>
      split
      case isTrue hc => exact .listedMismatch rfl hc
      case isFalse => exact .stop
  all_goals
    cases h
    constructor

end LmmApi.HeroSms.Email
