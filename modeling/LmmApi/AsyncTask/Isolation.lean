import LmmApi.AsyncTask.Billing
import LmmApi.Subscription.Usage

/-!
# Refunds across quota versions

Usage that was charged in one period of a subscription may be given back when a later period has
begun. Managed billing compares the version of the charge with the current one and leaves the
current usage alone. A task row carries no version, and the two ways in which a task gives quota
back subtract it from whatever is used now: `give_back_isolated_iff` says exactly when the current
usage survives.
-/

namespace LmmApi.AsyncTask

open Guarded Subscription Option Table

/-- The used amount of a subscription. -/
def usedOf (s : Store) (id : ℕ) : Option ℤ :=
  (s.billing.subscriptions.get? id).map UserSubscription.amountUsed

/-- An operation that gives back usage of the subscription `id` that was charged in `version`. The
row of a task does not tell in which version the task was charged. -/
inductive GivesBack (s : Store) : TaskOp → ℕ → ℤ → Prop
  | refund (requestId : String) (user i : ℕ) (r : PreConsumeRecord)
      (find : s.billing.findManaged requestId user = some (i, r)) :
      GivesBack s (.billing (.refund requestId user)) r.userSubscriptionId r.reservedVersion
  | settle (requestId : String) (user : ℕ) (actual : ℤ) (i : ℕ) (r : PreConsumeRecord)
      (find : s.billing.findManaged requestId user = some (i, r)) (down : actual < r.preConsumed) :
      GivesBack s (.billing (.settleCommit requestId user actual)) r.userSubscriptionId
        r.reservedVersion
  | taskRefund (id : ℕ) (task : Task) (get : s.tasks.get? id = some task)
      (funded : task.IsSubscription) (version : ℤ) :
      GivesBack s (.applyRefund id) task.subscriptionId version
  | recalculate (id : ℕ) (task : Task) (actualQuota : ℤ) (funded : task.IsSubscription)
      (down : actualQuota < task.quota) (version : ℤ) :
      GivesBack s (.recalculate id task actualQuota) task.subscriptionId version

/-- When an operation that gives back usage of an earlier version leaves the subscription alone:
always in managed billing; for a task only when nothing is given back at all, because no refund is
pending, the recalculated quota is none, or the subscription is over its total even
without it, or when nothing is used that could be given back. -/
def SparesUsage (s : Store) (sub : UserSubscription) : TaskOp → Prop
  | .applyRefund id => sub.amountUsed = 0 ∨ ¬∃ task, s.tasks.get? id = some task ∧ 0 < id ∧
      task.refundStatus = .pending ∧ 0 < task.refundQuota
  | .recalculate _ task actualQuota => sub.amountUsed = 0 ∨ actualQuota ≤ 0 ∨
      (0 < sub.amountTotal ∧ sub.amountTotal < sub.amountUsed - (task.quota - actualQuota))
  | _ => True

/-! ## Used amounts are not negative -/

/-- No subscription has a negative used amount. -/
def UsedNonneg (db : Db) : Prop :=
  ∀ id sub, db.subscriptions.get? id = some sub → 0 ≤ sub.amountUsed

theorem clampUsed_nonneg (used : ℤ) : 0 ≤ clampUsed used := by
  unfold clampUsed
  split <;> omega

variable {db db' : Db} {task : Task} {s : Store} {requestId : String} {user i : ℕ}
  {r : PreConsumeRecord}

section

variable (h : UsedNonneg db)
include h

theorem UsedNonneg.save {id : ℕ} {sub : UserSubscription}
    (hsubs : db'.subscriptions = db.subscriptions.modify id fun _ => sub)
    (hud : 0 ≤ sub.amountUsed) : UsedNonneg db' := by
  intro j b hj
  rw [hsubs, get?_modify, map_eq_some_iff] at hj
  obtain ⟨b₀, hb₀, rfl⟩ := hj
  split
  · exact hud
  · exact h j b₀ hb₀

theorem UsedNonneg.resets (hres : Resets db db') : UsedNonneg db' := by
  induction hres with
  | refl => exact h
  | tail _ hs ih =>
    obtain ⟨id, sub, _, hg, hren⟩ := hs
    refine ih.save rfl ?_
    cases hren with
    | scheduled => exact ih id sub hg
    | renewed => exact le_rfl

theorem UsedNonneg.billing {op : Op} (heff : Effect db op db') : UsedNonneg db' := by
  cases heff with
  | idle => exact h
  | reset _ _ hs => exact h.resets (.single hs)
  | reserved _ _ _ _ _ hres id sub _ _ hg hpos =>
    have hud := h.resets hres id sub hg
    exact (h.resets hres).save rfl (add_nonneg hud hpos.le)
  | raised | settled | released => exact h.save rfl (clampUsed_nonneg _)
  | intended | forgotten => exact h

theorem UsedNonneg.refundSource (hrf : refundSource task db = .ok db') : UsedNonneg db' := by
  unfold AsyncTask.refundSource at hrf
  split at hrf
  · simp only [orFail_bind, pure_eq_ok] at hrf
    obtain ⟨_, -, rfl⟩ := hrf
    exact h.save rfl (clampUsed_nonneg _)
  · split at hrf
    · simp only [eq_ok] at hrf
      obtain ⟨_, -, rfl⟩ := hrf
      exact h
    · obtain rfl := pure_eq_ok.1 hrf
      exact h

theorem UsedNonneg.adjustFunding {delta : ℤ}
    (hadj : taskAdjustFunding task delta db = .ok db') : UsedNonneg db' := by
  unfold taskAdjustFunding at hadj
  split at hadj
  · simp only [postConsumeUserSubscriptionDelta, require_bind] at hadj
    obtain ⟨-, hadj⟩ := hadj
    split at hadj
    · obtain rfl := pure_eq_ok.1 hadj
      exact h
    · obtain ⟨_, -, -, rfl⟩ := postConsume_eq_ok hadj
      exact h.save rfl (clampUsed_nonneg _)
  · simp only [eq_ok] at hadj
    obtain ⟨-, _, -, rfl⟩ := hadj
    exact h

end

theorem UsedNonneg.step (h : UsedNonneg s.billing) (env : Env) (op : TaskOp) :
    UsedNonneg (op.step env s).billing := by
  cases op with
  | billing op => exact h.billing (op.effect env _)
  | submit => exact h
  | prepareRefund =>
    refine commit_rule (P := fun s : Store => UsedNonneg s.billing) ?_ h
    unfold prepareTaskRefundIntent
    refine .bind fun _ => .bind fun task => ?_
    split
    · exact .pure h
    · exact .bind fun _ => .pure h
    · split
      · exact .pure h
      · exact .bind fun _ => .bind fun _ => .pure h
  | applyRefund =>
    refine commit_rule (P := fun s : Store => UsedNonneg s.billing) ?_ h
    unfold applyPreparedTaskRefund
    refine .bind fun _ => .bind fun task => ?_
    split
    · exact .pure h
    · intro out hout
      simp only [eq_ok] at hout
      obtain ⟨-, billing, hrf, rfl⟩ := hout
      have hbil := h.refundSource hrf
      exact hbil
  | recalculate =>
    unfold TaskOp.step recalculateTaskQuota
    dsimp only
    split
    · exact h
    · split
      · exact h
      · rename_i billing hadj
        have hbil := h.adjustFunding hadj
        exact hbil

theorem UsedNonneg.run (h : UsedNonneg s.billing) (events : List (Env × TaskOp)) :
    UsedNonneg (run s events).billing := by
  induction events generalizing s with
  | nil => exact h
  | cons e _ ih => exact ih (h.step e.1 e.2)

/-! ## What each operation leaves -/

variable {s : Store} {env : Env} {sub : UserSubscription} {task : Task} {id : ℕ}

theorem usedOf_setUsed (hg : db.subscriptions.get? id = some sub) (used : ℤ)
    (tokens : Table Token) (tasks : Table Task) :
    usedOf ⟨{ db.setUsed id sub used with tokens }, tasks⟩ id = some used := by
  simp [usedOf, Db.setUsed, Db.saveSubscription, get?_modify_self, hg]

section

variable (hfd : s.billing.findManaged requestId user = some (i, r))
  (hsub : s.billing.subscriptions.get? r.userSubscriptionId = some sub)
  (hver : sub.quotaVersion ≠ r.reservedVersion)
include hfd hsub hver

/-- A refund of an earlier version in managed billing spares the subscription. -/
theorem usedOf_refund :
    usedOf ((TaskOp.billing (.refund requestId user)).step env s) r.userSubscriptionId =
      usedOf s r.userSubscriptionId := by
  unfold TaskOp.step
  dsimp only
  have heff := (Op.refund requestId user).effect env s.billing
  generalize (Op.refund requestId user).step env s.billing = db' at heff ⊢
  cases heff with
  | idle => rfl
  | released _ _ _ _ _ _ row _ hg hcur =>
    obtain ⟨⟩ := mem_unique hfd row.find
    obtain rfl := mem_unique hsub hg
    exact absurd hcur hver
  | forgotten => rfl

/-- A settlement below a reservation of an earlier version spares the subscription. -/
theorem usedOf_settle {actual : ℤ} (hdown : actual < r.preConsumed) (hud : 0 ≤ sub.amountUsed) :
    usedOf ((TaskOp.billing (.settleCommit requestId user actual)).step env s)
      r.userSubscriptionId = usedOf s r.userSubscriptionId := by
  unfold TaskOp.step
  dsimp only
  have heff := (Op.settleCommit requestId user actual).effect env s.billing
  generalize (Op.settleCommit requestId user actual).step env s.billing = db' at heff ⊢
  cases heff with
  | idle => rfl
  | settled _ _ _ _ _ _ subDelta wallet _ _ row _ _ hg hspl =>
    obtain ⟨⟩ := mem_unique hfd row.find
    obtain rfl := mem_unique hsub hg
    -- Nothing is taken from the wallet and nothing given back.
    have hz : subDelta = 0 := by
      have hlat := hspl.later hver
      have hwal := hspl.wallet_nonneg
      have hup : ¬subDelta < 0 := fun hneg => hver (hspl.down hneg).1
      omega
    subst hz
    rw [add_zero, clampUsed_of_nonneg hud]
    simp [usedOf, Db.saveRecord, Db.setUsed, Db.saveSubscription, get?_modify_self, hg]

end

/-- A pending refund of a task is subtracted from the present usage. -/
theorem usedOf_applyRefund (hg : s.tasks.get? id = some task) (hfun : task.IsSubscription)
    (hsub : s.billing.subscriptions.get? task.subscriptionId = some sub) :
    usedOf ((TaskOp.applyRefund id).step env s) task.subscriptionId =
      some (if 0 < id ∧ task.refundStatus = .pending ∧ 0 < task.refundQuota then
        clampUsed (sub.amountUsed - task.refundQuota) else sub.amountUsed) := by
  have hbef : usedOf s task.subscriptionId = some sub.amountUsed := by simp [usedOf, hsub]
  split
  · rename_i hpen
    have hsou : refundSource task s.billing = .ok (s.billing.setUsed task.subscriptionId sub
        (clampUsed (sub.amountUsed - task.refundQuota))) := by
      rw [refundSource, if_pos hfun]
      exact bind_eq_ok.2 ⟨sub, orFail_eq_ok.2 hsub, rfl⟩
    have hcom : applyPreparedTaskRefund id s = .ok ((task.refundQuota, true), {
        billing := adjustToken task.tokenId (-task.refundQuota) (s.billing.setUsed
          task.subscriptionId sub (clampUsed (sub.amountUsed - task.refundQuota)))
        tasks := s.tasks.modify id fun t =>
          { t with quota := 0, refundStatus := .completed } }) := by
      refine bind_eq_ok.2 ⟨(), require_eq_ok.2 hpen.1, bind_eq_ok.2 ⟨task, orFail_eq_ok.2 hg, ?_⟩⟩
      rw [if_neg (by simp [hpen.2.1])]
      exact bind_eq_ok.2 ⟨(), require_eq_ok.2 hpen.2, bind_eq_ok.2 ⟨_, hsou, rfl⟩⟩
    rw [TaskOp.step, hcom]
    exact usedOf_setUsed hsub _ _ _
  · rename_i hpen
    rw [← hbef, TaskOp.step]
    refine commit_rule (P := fun s' => usedOf s' task.subscriptionId = usedOf s task.subscriptionId)
      (fun out hout => ?_) rfl
    simp only [applyPreparedTaskRefund, require_bind, orFail_bind] at hout
    obtain ⟨hid, _, htk', hout⟩ := hout
    obtain rfl := mem_unique hg htk'
    split at hout
    · obtain rfl := pure_eq_ok.1 hout
      rfl
    · simp only [require_bind] at hout
      exact absurd ⟨hid, hout.1⟩ hpen

/-- So is a downward recalculation, unless the subscription is over its total even then. -/
theorem usedOf_recalculate {actualQuota : ℤ} (hfun : task.IsSubscription)
    (hsub : s.billing.subscriptions.get? task.subscriptionId = some sub)
    (hdown : actualQuota < task.quota) :
    usedOf ((TaskOp.recalculate id task actualQuota).step env s) task.subscriptionId =
      some (if actualQuota ≤ 0 ∨
          (0 < sub.amountTotal ∧ sub.amountTotal < sub.amountUsed - (task.quota - actualQuota)) then
        sub.amountUsed else clampUsed (sub.amountUsed - (task.quota - actualQuota))) := by
  have hbef : usedOf s task.subscriptionId = some sub.amountUsed := by simp [usedOf, hsub]
  have hover : 0 < sub.amountTotal → (sub.amountTotal < clampUsed (sub.amountUsed +
      (actualQuota - task.quota)) ↔
        sub.amountTotal < sub.amountUsed - (task.quota - actualQuota)) := by
    unfold clampUsed
    split <;> omega
  rw [TaskOp.step, recalculateTaskQuota]
  by_cases hn : actualQuota ≤ 0
  · rw [if_pos (.inl hn), if_pos (.inl hn), hbef]
  · have hfu : taskAdjustFunding task (actualQuota - task.quota) s.billing =
        postConsumeUserSubscriptionDeltaTx s.billing task.subscriptionId
          (actualQuota - task.quota) := by
      rw [taskAdjustFunding, if_pos hfun, postConsumeUserSubscriptionDelta, require,
        if_pos hfun.2, if_neg (by omega)]
      rfl
    rw [if_neg (by omega), hfu]
    cases hpost : postConsumeUserSubscriptionDeltaTx s.billing task.subscriptionId
        (actualQuota - task.quota) with
    | error e =>
      -- A decrease fails only when the total is exceeded even so.
      simp only [postConsumeUserSubscriptionDeltaTx, bind_eq_error, orFail_eq_error, eq_ok,
        require_eq_error, pure_ne_error, hsub, reduceCtorEq, false_and, false_or, some.injEq,
        exists_eq_left', not_not, and_false, or_false] at hpost
      have hexc : 0 < sub.amountTotal ∧
          sub.amountTotal < sub.amountUsed - (task.quota - actualQuota) := by omega
      rw [if_pos (.inr hexc)]
      exact hbef
    | ok billing =>
      obtain ⟨_, hsub', hft, rfl⟩ := postConsume_eq_ok hpost
      obtain rfl := mem_unique hsub hsub'
      rw [if_neg (by omega), show sub.amountUsed - (task.quota - actualQuota) =
        sub.amountUsed + (actualQuota - task.quota) by ring]
      exact usedOf_setUsed hsub _ _ _

/-! ## The condition -/

theorem clampUsed_sub_eq_iff {used amount : ℤ} (hpos : 0 < amount) :
    clampUsed (used - amount) = used ↔ used = 0 := by
  unfold clampUsed
  split <;> omega

/-- **When a refund of an earlier period leaves the current usage alone.** In every state that a run
reaches from subscriptions without negative usage, an operation that gives back usage charged in
another version leaves the used amount of the subscription as it is exactly under the condition
`SparesUsage`: managed billing always does, and a task only when it gives nothing back. -/
theorem give_back_isolated_iff {s₀ : Store} (hstart : UsedNonneg s₀.billing)
    (events : List (Env × TaskOp)) (env : Env) {op : TaskOp} {id : ℕ} {version : ℤ}
    {sub : UserSubscription} (hgives : GivesBack (run s₀ events) op id version)
    (hsub : (run s₀ events).billing.subscriptions.get? id = some sub)
    (hversion : sub.quotaVersion ≠ version) :
    usedOf (op.step env (run s₀ events)) id = usedOf (run s₀ events) id ↔
      SparesUsage (run s₀ events) sub op := by
  have hused := hstart.run events id sub hsub
  generalize run s₀ events = s at *
  have hbefore : usedOf s id = some sub.amountUsed := by simp [usedOf, hsub]
  cases hgives with
  | refund _ _ _ _ hfind => exact iff_of_true (usedOf_refund hfind hsub hversion) trivial
  | settle _ _ _ _ _ hfind hdown =>
    exact iff_of_true (usedOf_settle hfind hsub hversion hdown hused) trivial
  | taskRefund i task hget hfunded =>
    rw [usedOf_applyRefund hget hfunded hsub, hbefore, some.injEq, SparesUsage]
    by_cases hpending : 0 < i ∧ task.refundStatus = .pending ∧ 0 < task.refundQuota
    · rw [if_pos hpending, clampUsed_sub_eq_iff hpending.2.2]
      exact (or_iff_left (not_not.2 ⟨task, hget, hpending⟩)).symm
    · rw [if_neg hpending]
      refine iff_of_true rfl (.inr ?_)
      rintro ⟨task', hget', hpending'⟩
      obtain rfl := mem_unique hget hget'
      exact hpending hpending'
  | recalculate i task actualQuota hfunded hdown =>
    rw [usedOf_recalculate hfunded hsub hdown, hbefore, some.injEq, SparesUsage]
    split
    · rename_i hnothing
      exact iff_of_true rfl (.inr hnothing)
    · rename_i hnothing
      rw [clampUsed_sub_eq_iff (by omega)]
      exact (or_iff_left hnothing).symm

/-! ## A task that is refunded on the next day -/

/-- A task that was charged with 40 on the subscription. -/
def sampleTask : Task where
  userId := 1
  quota := 40
  billingSource := .subscription
  subscriptionId := 1
  tokenId := 1

/-- A time under the plan with daily resets. -/
def daily (now : ℤ) : Env := ⟨now, fun _ => some ⟨"daily", 0⟩, 0⟩

/-- On the first day a request reserves 20, and another one is charged with 40 and submits a task.
On the second day a third request reserves 50, and the task has failed. -/
def taskEvents : List (Env × TaskOp) :=
  [(daily 1000, .billing (.preConsume "open" 1 1 20 false)),
    (daily 1000, .billing (.preConsume "task" 1 1 40 false)),
    (daily 1000, .billing (.settleIntent "task" 1 40)),
    (daily 1000, .billing (.settleCommit "task" 1 40)), (daily 1000, .submit sampleTask),
    (daily 90000, .billing (.preConsume "next" 1 1 50 false)), (daily 90000, .prepareRefund 1 40)]

/-- The sample tables without tasks. -/
def sampleStart : Store := ⟨sampleDb, Table.empty⟩

/-- The store after the sample run. -/
def sampleStore : Store := run sampleStart taskEvents

/-- The open reservation of the first day. -/
def openRecord : PreConsumeRecord :=
  { PreConsumeRecord.consumed "open" 1 1 20 with
    billingManaged := true, tokenId := 1, tokenConsumed := 20 }

theorem usedNonneg_sampleStart : UsedNonneg sampleStart.billing := by
  intro id sub hg
  obtain ⟨-, rfl⟩ | hg := get?_insert_cases hg
  · exact le_rfl
  · cases hg

/-- A managed refund across the reset leaves the usage of the second day alone. -/
theorem give_back_isolated_refund :
    usedOf ((TaskOp.billing (.refund "open" 1)).step (daily 90000) sampleStore) 1 =
      usedOf sampleStore 1 := by
  obtain ⟨_, hsub, hversion⟩ :
      ∃ sub ∈ sampleStore.billing.subscriptions.get? 1, sub.quotaVersion = 1 := by decide +kernel
  have hgives : GivesBack sampleStore (.billing (.refund "open" 1)) 1 0 :=
    .refund "open" 1 1 openRecord (by decide +kernel)
  exact (give_back_isolated_iff usedNonneg_sampleStart taskEvents (daily 90000) hgives hsub
    (by omega)).2 trivial

/-- The refund of the task, or a recalculation of its quota to 15, reduces the usage of the second
day, although the task was charged on the first day. -/
theorem task_gives_back_current_usage :
    (sampleStore.billing.subscriptions.get? 1).map UserSubscription.quotaVersion = some 1 ∧
      (sampleStore.billing.findRecord "task").map (fun row => row.2.reservedVersion) = some 0 ∧
      usedOf sampleStore 1 = some 50 ∧
      GivesBack sampleStore (.applyRefund 1) 1 0 ∧
      usedOf ((TaskOp.applyRefund 1).step (daily 90000) sampleStore) 1 = some 10 ∧
      GivesBack sampleStore (.recalculate 1 sampleTask 15) 1 0 ∧
      usedOf ((TaskOp.recalculate 1 sampleTask 15).step (daily 90000) sampleStore) 1 = some 25 := by
  refine ⟨by decide +kernel, by decide +kernel, by decide +kernel, ?_, by decide +kernel, ?_,
    by decide +kernel⟩
  · exact .taskRefund 1 { sampleTask with refundStatus := .pending, refundQuota := 40 }
      (by decide +kernel) ⟨rfl, Nat.one_pos⟩ 0
  · exact .recalculate 1 sampleTask 15 ⟨rfl, Nat.one_pos⟩ (by decide) 0

end LmmApi.AsyncTask
