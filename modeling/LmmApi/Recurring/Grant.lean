import LmmApi.Recurring.Data

/-!
# Grants of subscriptions

The functions that every event of a subscription order is handled with: the lock on a subscription
and its owner, the user group that a subscription raises and restores, and the creation of a
subscription from a plan. `completeSubscriptionOrder` settles an order: it creates the subscription
with the quota of the frozen plan.
-/

namespace LmmApi.Recurring

open Guarded Go
open Recharge (OrderStatus TopUp)

variable (env : Env)

/-! ## Users and their groups -/

/-- A user that is not deleted. -/
def Db.liveUser (db : Db) (id : ℕ) : Option User :=
  (db.users.get? id).filter fun u => u.deleted = false

/-- `lockUserSubscriptionForMutationTx`. -/
def lockUserSubscription (db : Db) (subscriptionId expectedUserId : ℕ) :
    Except Failure (UserSubscription × User) := do
  require (.other "invalid subscription mutation lock args") (0 < subscriptionId)
  let sub ← orFail (db.subscriptions.get? subscriptionId) .recordNotFound
  require .recordNotFound (expectedUserId = 0 ∨ sub.userId = expectedUserId)
  let user ← orFail (db.liveUser sub.userId) .recordNotFound
  return (sub, user)

theorem lockUserSubscription_eq_ok {db : Db} {subscriptionId expectedUserId : ℕ}
    {sub : UserSubscription} {user : User} :
    lockUserSubscription db subscriptionId expectedUserId = .ok (sub, user) ↔
      0 < subscriptionId ∧ db.subscriptions.get? subscriptionId = some sub ∧
        (expectedUserId = 0 ∨ sub.userId = expectedUserId) ∧
        db.liveUser sub.userId = some user := by
  constructor
  · intro h
    obtain ⟨_, hpos, h⟩ := bind_eq_ok.1 h
    obtain ⟨_, hget, h⟩ := bind_eq_ok.1 h
    obtain ⟨_, howner, h⟩ := bind_eq_ok.1 h
    obtain ⟨_, hlive, h⟩ := bind_eq_ok.1 h
    obtain ⟨⟩ := pure_eq_ok.1 h
    exact ⟨require_eq_ok.1 hpos, orFail_eq_ok.1 hget, require_eq_ok.1 howner, orFail_eq_ok.1 hlive⟩
  · rintro ⟨hpos, hget, howner, hlive⟩
    rw [lockUserSubscription, require_of hpos, ok_bind, hget, orFail_some, ok_bind,
      require_of howner, ok_bind, hlive]
    rfl

def Db.setGroup (db : Db) (user : ℕ) (group : String) : Db :=
  { db with users := db.users.modify user fun u => { u with group } }

/-- A change of groups deletes no user. -/
theorem Db.isSome_liveUser_setGroup (db : Db) (user : ℕ) (group : String) (j : ℕ) :
    ((db.setGroup user group).liveUser j).isSome = (db.liveUser j).isSome := by
  simp only [liveUser, setGroup, Table.get?_modify, Option.isSome_filter]
  split <;> cases db.users.get? j <;> rfl

/-- Raise the group of the owner of an active subscription. -/
def Db.upgradeUserGroup (db : Db) (sub : UserSubscription) (user : User) : Db :=
  if trimSpace sub.upgradeGroup ≠ "" ∧ user.group ≠ trimSpace sub.upgradeGroup then
    db.setGroup sub.userId (trimSpace sub.upgradeGroup)
  else db

section

variable (db : Db) (sub : UserSubscription) (user : User)
include db sub user

theorem Db.upgradeUserGroup_cases :
    db.upgradeUserGroup sub user = db ∨
      ∃ group, db.upgradeUserGroup sub user = db.setGroup sub.userId group := by
  unfold upgradeUserGroup
  split
  · exact .inr ⟨_, rfl⟩
  · exact .inl rfl

theorem Db.upgradeUserGroup_paymentEvents :
    (db.upgradeUserGroup sub user).paymentEvents = db.paymentEvents := by
  rcases db.upgradeUserGroup_cases sub user with heq | ⟨group, heq⟩ <;> rw [heq]
  rfl

/-- `downgradeUserGroupForSubscriptionTx` for the subscription `id`. Another active subscription
that raises the group keeps it. -/
def downgradeUserGroup (db : Db) (id : ℕ) (sub : UserSubscription) (now : ℤ) : Except Failure Db :=
  let downgradeGroup := trimSpace sub.downgradeGroup
  let upgradeGroup := trimSpace sub.upgradeGroup
  if downgradeGroup = "" ∧ upgradeGroup = "" then return db
  else do
    let user ← orFail (db.liveUser sub.userId) .recordNotFound
    let target := if downgradeGroup = "" then trimSpace sub.prevUserGroup else downgradeGroup
    if db.subscriptions.Any (fun j s => s.userId = sub.userId ∧ s.status = .active ∧
        now < s.endTime ∧ j ≠ id ∧ s.upgradeGroup ≠ "") then return db
    else if downgradeGroup = "" ∧ user.group ≠ upgradeGroup then return db
    else if target = "" ∨ target = user.group then return db
    else return db.setGroup sub.userId target

/-- Only the users change, and none is deleted. -/
def Db.SameButGroups (db db' : Db) : Prop :=
  (∃ users, db' = { db with users }) ∧ ∀ j, (db'.liveUser j).isSome = (db.liveUser j).isSome

omit sub user in
theorem Db.sameButGroups_setGroup (user : ℕ) (group : String) :
    db.SameButGroups (db.setGroup user group) :=
  ⟨⟨_, rfl⟩, db.isSome_liveUser_setGroup user group⟩

omit sub user in
theorem Db.SameButGroups.refl : db.SameButGroups db := ⟨⟨db.users, rfl⟩, fun _ => rfl⟩

theorem Db.sameButGroups_upgradeUserGroup : db.SameButGroups (db.upgradeUserGroup sub user) := by
  rcases db.upgradeUserGroup_cases sub user with heq | ⟨group, heq⟩ <;> rw [heq]
  · exact .refl db
  · exact db.sameButGroups_setGroup _ group

end

theorem downgradeUserGroup_eq_ok {db db' : Db} {id : ℕ} {sub : UserSubscription} {now : ℤ}
    (h : downgradeUserGroup db id sub now = .ok db') : db.SameButGroups db' := by
  unfold downgradeUserGroup at h
  extract_lets downgradeGroup upgradeGroup target at h
  split at h
  · rw [← pure_eq_ok.1 h]
    exact .refl db
  · obtain ⟨_, -, h⟩ := bind_eq_ok.1 h
    split at h
    · rw [← pure_eq_ok.1 h]
      exact .refl db
    · split at h
      · rw [← pure_eq_ok.1 h]
        exact .refl db
      · split at h <;> rw [← pure_eq_ok.1 h]
        · exact .refl db
        · exact db.sameButGroups_setGroup _ _

/-! ## New subscriptions -/

/-- `t.AddDate(0, months, 0).Unix()`: a day that the month does not have runs over into the next. -/
def addMonths (utcOffset t months : ℤ) : ℤ :=
  let day := dayOf utcOffset t
  midnight utcOffset (monthStart (monthOf day + months) + (day - monthStart (monthOf day))) +
    (t + utcOffset) % 86400

def calcPlanEndTime (start : ℤ) (plan : Plan) : Except Failure ℤ := do
  require (.other "duration_value must be > 0")
    ¬(plan.durationValue ≤ 0 ∧ plan.durationUnit ≠ "custom")
  match plan.durationUnit with
  | "year" => return addMonths env.utcOffset start (12 * plan.durationValue)
  | "month" => return addMonths env.utcOffset start plan.durationValue
  | "day" => return addSeconds start (plan.durationValue * 86400)
  | "hour" => return addSeconds start (plan.durationValue * 3600)
  | "custom" =>
    require (.other "custom_seconds must be > 0") (0 < plan.customSeconds)
    return addSeconds start plan.customSeconds
  | unit => .error (.other s!"invalid duration_unit: {unit}")

/-- The subscription that `CreateUserSubscriptionFromPlanTx` creates. -/
def newSubscription (user : ℕ) (plan : Plan) (endUnix : ℤ) (prevGroup : String) :
    UserSubscription where
  userId := user
  planId := plan.id
  amountTotal := plan.totalAmount
  amountUsed := 0
  quotaVersion := 0
  startTime := env.now
  endTime := endUnix
  status := .active
  lastResetTime :=
    if 0 < Subscription.calcNextResetTime env.utcOffset env.now plan.toSubscriptionPlan endUnix
    then env.now else 0
  nextResetTime := Subscription.calcNextResetTime env.utcOffset env.now plan.toSubscriptionPlan
    endUnix
  allowWalletOverflow := plan.allowWalletOverflow.getD true
  upgradeGroup := trimSpace plan.upgradeGroup
  prevUserGroup := prevGroup
  downgradeGroup := trimSpace plan.downgradeGroup
  updatedAt := env.now

/-- `CreateUserSubscriptionFromPlanTx`: the new subscription with its id, and the tables. -/
def createUserSubscriptionFromPlan (db : Db) (user : ℕ) (plan : Plan) :
    Except Failure ((ℕ × UserSubscription) × Db) := do
  require (.other "invalid plan") (plan.id ≠ 0)
  require (.other "invalid user id") (0 < user)
  require (.other "已达到该套餐购买上限") ¬(0 < plan.maxPurchasePerUser ∧ plan.maxPurchasePerUser ≤
      db.subscriptions.count fun _ s => s.userId = user ∧ s.planId = plan.id)
  let endUnix ← calcPlanEndTime env env.now plan
  if trimSpace plan.upgradeGroup = "" then
    let sub := newSubscription env user plan endUnix ""
    return ((db.subscriptions.next, sub), { db with subscriptions := db.subscriptions.insert sub })
  else
    let owner ← orFail (db.liveUser user) .recordNotFound
    if owner.group = trimSpace plan.upgradeGroup then
      let sub := newSubscription env user plan endUnix ""
      return ((db.subscriptions.next, sub),
        { db with subscriptions := db.subscriptions.insert sub })
    else
      let sub := newSubscription env user plan endUnix owner.group
      return ((db.subscriptions.next, sub), { db.setGroup user (trimSpace plan.upgradeGroup) with
          subscriptions := db.subscriptions.insert sub })

/-- What creation does: a row with the quota of the plan, and perhaps a new group. -/
theorem createUserSubscriptionFromPlan_eq_ok {env : Env} {db db' : Db} {user : ℕ} {plan : Plan}
    {created : ℕ × UserSubscription}
    (h : createUserSubscriptionFromPlan env db user plan = .ok (created, db')) :
    ∃ endUnix prevGroup, created = (db.subscriptions.next, newSubscription env user plan endUnix
        prevGroup) ∧
      Db.SameButGroups { db with subscriptions := db.subscriptions.insert created.2 } db' := by
  simp only [createUserSubscriptionFromPlan, eq_ok] at h
  obtain ⟨-, -, -, endUnix, -, h⟩ := h
  split at h
  · obtain ⟨⟩ := pure_eq_ok.1 h
    exact ⟨endUnix, "", rfl, .refl _⟩
  · obtain ⟨owner, -, h⟩ := bind_eq_ok.1 h
    split at h
    · obtain ⟨⟩ := pure_eq_ok.1 h
      exact ⟨endUnix, "", rfl, .refl _⟩
    · obtain ⟨⟩ := pure_eq_ok.1 h
      exact ⟨endUnix, owner.group, rfl, Db.sameButGroups_setGroup _ user _⟩

/-! ## Settled orders -/

/-- The receipt of an order that has none. -/
def newReceipt (order : Order) (money : ℚ) : TopUp where
  userId := order.userId
  money
  expectedAmountMicros := order.expectedAmountMicros
  settledAmountMicros := order.expectedAmountMicros
  settlementCurrency := toUpper (trimSpace order.settlementCurrency)
  tradeNo := order.tradeNo
  paymentMethod := order.paymentMethod
  paymentProvider := order.paymentProvider
  createTime := order.createTime
  completeTime := env.now
  status := .success

/-- The receipt of an order after its settlement. -/
def updatedReceipt (order : Order) (money : ℚ) (t : TopUp) : TopUp :=
  let frozen := 0 < order.expectedAmountMicros
  { t with
    money
    expectedAmountMicros := if frozen then order.expectedAmountMicros else t.expectedAmountMicros
    settledAmountMicros := if frozen then order.expectedAmountMicros else t.settledAmountMicros
    settlementCurrency := if frozen then toUpper (trimSpace order.settlementCurrency)
      else t.settlementCurrency
    paymentProvider := if t.paymentProvider = "" then order.paymentProvider else t.paymentProvider
    paymentMethod := if t.paymentMethod = "" then order.paymentMethod else t.paymentMethod
    createTime := if t.createTime = 0 then order.createTime else t.createTime
    completeTime := env.now
    status := .success }

def upsertSubscriptionTopUp (db : Db) (order : Order) : Except Failure Db :=
  let money := if 0 < order.expectedAmountMicros then env.moneyOfMicros order.expectedAmountMicros
    else order.money
  match db.topUps.first? (fun _ t => t.tradeNo = order.tradeNo) with
  | none => return { db with topUps := db.topUps.insert (newReceipt env order money) }
  | some (id, t) => do
    require .methodMismatch (t.paymentProvider = "" ∨ order.paymentProvider = "" ∨
      t.paymentProvider = order.paymentProvider)
    require .methodMismatch (t.paymentMethod = "" ∨ t.paymentMethod = order.paymentMethod)
    return { db with topUps := db.topUps.modify id fun _ => updatedReceipt env order money t }

theorem upsertSubscriptionTopUp_eq_ok {env : Env} {db db' : Db} {order : Order}
    (h : upsertSubscriptionTopUp env db order = .ok db') : ∃ topUps, db' = { db with topUps } := by
  unfold upsertSubscriptionTopUp at h
  extract_lets money at h
  split at h
  · exact ⟨_, (pure_eq_ok.1 h).symm⟩
  · obtain ⟨-, h⟩ := of_bind h
    obtain ⟨-, h⟩ := of_bind h
    exact ⟨_, (pure_eq_ok.1 h).symm⟩

/-- The plan that an order is completed with: the frozen one, or that of the table. -/
def orderPlan (order : Order) (plan : Plan) : Except Failure Plan :=
  match order.planSnapshot with
  | .blank => return plan
  | .malformed => .error (.other "decode subscription plan snapshot")
  | .frozen frozen => do
    require .planChanged (frozen.id = order.planId ∧ frozen.priceAmount = order.money)
    return frozen

def getSubscriptionPlanForPersistence (id : ℕ) : Except Failure Plan := do
  require (.other "invalid plan id") (0 < id)
  orFail (env.plans id) .recordNotFound

def completeSubscriptionOrder (tradeNo providerPayload expectedPaymentProvider
    actualPaymentMethod : String) (db : Db) : Except Failure Db := do
  require (.other "tradeNo is empty") (tradeNo ≠ "")
  let (id, order) ← orFail (db.findOrder tradeNo) .orderNotFound
  if order.status = .success then return db
  else
    require .orderStatusInvalid (order.status = .pending)
    let current ← getSubscriptionPlanForPersistence env order.planId
    require .planChanged (order.planId = current.id)
    require .methodMismatch
      (expectedPaymentProvider = "" ∨ order.paymentProvider = expectedPaymentProvider)
    let plan ← orderPlan order current
    let _ ← orFail (db.liveUser order.userId) .recordNotFound
    let (created, db) ← createUserSubscriptionFromPlan env db order.userId plan
    let db ← upsertSubscriptionTopUp env db order
    return db.saveOrder id { order with
      userSubscriptionId := created.1
      status := .success
      completeTime := env.now
      providerPayload := if providerPayload = "" then order.providerPayload else providerPayload
      paymentMethod := if actualPaymentMethod = "" then order.paymentMethod
        else actualPaymentMethod }

end LmmApi.Recurring
