import LmmApi.Lib.Delivery
import LmmApi.Recharge.Settle

/-!
# Top-ups are credited once

Along any run of settlements, manual completions and closings, with any repetitions, the wallet of
the user of an order gets the quota of the order once, when the order becomes successful, and never
otherwise; a successful order stays so, and no event or transaction of a provider belongs to two
orders.

What a transaction can do to the orders and the wallets is `Effect`; `Advances` is what this means
for one order, with the credits, and it composes along a run. The one way to a successful order
without credit is `updatePendingTopUpStatus` with the target `success`, which no caller asks for.
-/

namespace LmmApi.Recharge

open Guarded Go Attribution Option Table

variable {env : Env} {db db' : Db} {tradeNo : String} {id : ℕ} {t t' t'' : TopUp} {s : Settlement}
  {cs cs' : List (ℕ × ℤ)}

/-! ## Indexes -/

/-- What the unique indexes of the `top_ups` table guarantee. -/
structure Db.Indexed (db : Db) : Prop where
  tradeNo : ∀ i j t t', db.topUps.get? i = some t → db.topUps.get? j = some t' →
    t.tradeNo = t'.tradeNo → i = j
  evidence : ∀ i j t t', db.topUps.get? i = some t → db.topUps.get? j = some t' → i ≠ j →
    ¬t.Clashes t'

theorem TopUp.Clashes.symm (h : t.Clashes t') : t'.Clashes t := by
  obtain ⟨hpv, hev | htra⟩ := h
  · exact ⟨hpv.symm, .inl ⟨hev.2 ▸ hev.1, hev.2.symm⟩⟩
  · exact ⟨hpv.symm, .inr ⟨htra.2 ▸ htra.1, htra.2.symm⟩⟩

theorem Db.get_of_findTopUp (h : db.findTopUp tradeNo = some (id, t)) :
    db.topUps.get? id = some t ∧ t.tradeNo = tradeNo :=
  first?_eq_some h

namespace Db.Indexed

/-- The row of a trade number is the only one. -/
theorem findTopUp_iff (h : db.Indexed) :
    db.findTopUp tradeNo = some (id, t) ↔ db.topUps.get? id = some t ∧ t.tradeNo = tradeNo := by
  refine ⟨get_of_findTopUp, fun ⟨hg, hnm⟩ => ?_⟩
  refine first?_eq_some_iff.2 ⟨hg, hnm, fun j t' hg' hnm' => ?_⟩
  exact (h.tradeNo id j t t' hg hg' (hnm.trans hnm'.symm)).le

/-- The indexes after one order was changed, to one that no other clashes with. -/
theorem modify (h : db.Indexed) (hg : db.topUps.get? id = some t) (hnm : t'.tradeNo = t.tradeNo)
    (hfr : ∀ j u, db.topUps.get? j = some u → j ≠ id → ¬u.Clashes t')
    (htop : db'.topUps = db.topUps.modify id fun _ => t') : db'.Indexed := by
  have hr {j u} (hu : db'.topUps.get? j = some u) :
      j = id ∧ u = t' ∨ j ≠ id ∧ db.topUps.get? j = some u := by
    rw [htop] at hu
    exact get?_modify_cases hg hu
  refine ⟨fun i j u v hu hv heq => ?_, fun i j u v hu hv hne => ?_⟩
  · rcases hr hu with ⟨rfl, rfl⟩ | ⟨-, hu⟩
    · rcases hr hv with ⟨rfl, rfl⟩ | ⟨-, hv⟩
      · rfl
      · exact h.tradeNo _ _ _ _ hg hv (hnm.symm.trans heq)
    · rcases hr hv with ⟨rfl, rfl⟩ | ⟨-, hv⟩
      · exact h.tradeNo _ _ _ _ hu hg (heq.trans hnm)
      · exact h.tradeNo _ _ _ _ hu hv heq
  · rcases hr hu with ⟨rfl, rfl⟩ | ⟨hi, hu⟩
    · rcases hr hv with ⟨rfl, rfl⟩ | ⟨hj, hv⟩
      · exact absurd rfl hne
      · exact fun hcla => hfr j v hv hj hcla.symm
    · rcases hr hv with ⟨rfl, rfl⟩ | ⟨-, hv⟩
      · exact hfr i u hu hi
      · exact h.evidence _ _ _ _ hu hv hne

end Db.Indexed

/-! ## What a transaction can do -/

/-- What a transaction can do to the orders and the wallets. The row that is written clashes with no
other. -/
inductive Effect (tradeNo : String) (db db' : Db) : Prop
  | kept (htopUps : db'.topUps = db.topUps) (husers : db'.users = db.users)
  /-- An order is closed, or gets missing evidence. -/
  | changed (id : ℕ) (t t' : TopUp) (hfound : db.findTopUp tradeNo = some (id, t))
      (htopUps : db'.topUps = db.topUps.modify id fun _ => t') (husers : db'.users = db.users)
      (hname : t'.tradeNo = t.tradeNo) (huser : t'.userId = t.userId)
      (hstatus : t'.status = .success ↔ t.status = .success)
      (hquota : t'.creditedQuota = t.creditedQuota)
      (hfree : ∀ j u, db.topUps.get? j = some u → j ≠ id → ¬u.Clashes t')
  /-- A pending order succeeds, and its quota is credited to its user. -/
  | credited (id : ℕ) (t t' : TopUp) (u : User) (hfound : db.findTopUp tradeNo = some (id, t))
      (htopUps : db'.topUps = db.topUps.modify id fun _ => t')
      (howner : db.users.get? t.userId = some u)
      (husers : db'.users = db.users.modify t.userId (User.addQuota t'.creditedQuota))
      (hname : t'.tradeNo = t.tradeNo) (huser : t'.userId = t.userId)
      (hpending : t.status = .pending) (hsuccess : t'.status = .success)
      (hquota : 0 < t'.creditedQuota)
      (hfree : ∀ j u, db.topUps.get? j = some u → j ≠ id → ¬u.Clashes t')

theorem Effect.indexed (h : Effect tradeNo db db') (hind : db.Indexed) : db'.Indexed := by
  cases h with
  | kept htop => exact ⟨htop ▸ hind.tradeNo, htop ▸ hind.evidence⟩
  | changed _ _ _ hf htop _ hnm _ _ _ hfr | credited _ _ _ _ hf htop _ _ hnm _ _ _ _ hfr =>
    exact hind.modify (Db.get_of_findTopUp hf).1 hnm hfr htop

theorem saveTopUp_eq_ok (h : db.saveTopUp id t = .ok db') :
    db' = { db with topUps := db.topUps.modify id fun _ => t } ∧
      ∀ j u, db.topUps.get? j = some u → j ≠ id → ¬u.Clashes t := by
  obtain ⟨_, hfr, h⟩ := bind_eq_ok.1 h
  refine ⟨(pure_eq_ok.1 h).symm, fun j u hu hne hcla => ?_⟩
  exact require_eq_ok.1 hfr (any_iff.2 ⟨j, u, hu, hne, hcla⟩)

theorem creditTopUpQuota_eq_ok {user : ℕ} {quota : ℤ} {contact : Contact → Contact}
    (h : creditTopUpQuota db user quota contact = .ok db') :
    0 < quota ∧ quota ≤ maxWalletQuota ∧ ∃ u contacts, db.users.get? user = some u ∧
      db' = { db with users := db.users.modify user (User.addQuota quota), contacts } := by
  obtain ⟨_, hquo, h⟩ := bind_eq_ok.1 h
  obtain ⟨hpos, hmax⟩ := require_eq_ok.1 hquo
  obtain ⟨_, hwal, h⟩ := bind_eq_ok.1 h
  obtain ⟨-, u, hg, -, -, rfl⟩ := updateWalletQuotaByDelta_eq_ok.1 hwal
  exact ⟨hpos, hmax, u, _, hg, (pure_eq_ok.1 h).symm⟩

/-! ## The operations -/

variable {r : TopUp} {i : TopUpStep}

/-- Evidence for a settled order: nothing, or the order with what was missing. -/
theorem bindSettledEvidence_eq_ok (h : bindSettledEvidence id t s db = .ok (r, db')) :
    db' = db ∨ ∃ evidence, db.saveTopUp id (t.withEvidence evidence) = .ok db' := by
  obtain ⟨_, h⟩ := of_bind h
  simp only [] at h
  split at h
  · obtain ⟨_, h⟩ := of_bind h
    obtain ⟨⟩ := pure_eq_ok.1 h
    exact .inl rfl
  · simp only [eq_ok] at h
    obtain ⟨-, -, _, hsave, -, rfl⟩ := h
    exact .inr ⟨_, hsave⟩

/-- What a settlement of a pending order leaves: the order `t'`, its quota in the wallet and its
discount used. -/
def Settles (env : Env) (db : Db) (id : ℕ) (t t' : TopUp) (db' : Db) : Prop :=
  t.status = .pending ∧ 0 < t'.creditedQuota ∧
    (∀ j u, db.topUps.get? j = some u → j ≠ id → ¬u.Clashes t') ∧
    ∃ u contacts discounts, db.users.get? t'.userId = some u ∧
      consumeReservedDiscountCodeUsage env.now t' db.discounts = .ok discounts ∧
      db' = { db with
        topUps := db.topUps.modify id fun _ => t'
        users := db.users.modify t'.userId (User.addQuota t'.creditedQuota)
        contacts, discounts }

/-- The writes of a settlement. -/
theorem Settles.of_writes {t' : TopUp} {db₁ db₂ : Db} {f : Contact → Contact}
    (hpen : t.status = .pending) (hsave : db.saveTopUp id t' = .ok db₁)
    (hcr : creditTopUpQuota db₁ t'.userId t'.creditedQuota f = .ok db₂)
    (hdis : consumeDiscountCodeUsage env db₂ t' = .ok db') : Settles env db id t t' db' := by
  obtain ⟨rfl, hfr⟩ := saveTopUp_eq_ok hsave
  obtain ⟨hpos, -, u, contacts, hown, rfl⟩ := creditTopUpQuota_eq_ok hcr
  obtain ⟨discounts, hcon, hdis⟩ := bind_eq_ok.1 hdis
  obtain rfl := pure_eq_ok.1 hdis
  exact ⟨hpen, hpos, hfr, u, contacts, discounts, hown, hcon, rfl⟩

theorem settlePending_eq_ok (h : settlePending env id t s db = .ok (r, db')) :
    Settles env db id t (t.settledBy env s (normalizedTopUpCreditedQuota env t)) db' := by
  simp only [settlePending, eq_ok] at h
  obtain ⟨hpen, -, -, -, -, _, hsave, -, _, hcr, _, hdis, -, rfl⟩ := h
  exact .of_writes hpen hsave hcr hdis

/-- A settlement credits the order. -/
theorem Settles.effect {t' : TopUp} (h : Settles env db id t t' db')
    (hf : db.findTopUp tradeNo = some (id, t)) (hnm : t'.tradeNo = t.tradeNo)
    (hu : t'.userId = t.userId) (hst : t'.status = .success) : Effect tradeNo db db' := by
  obtain ⟨hpen, hpos, hfr, u, _, _, hown, -, rfl⟩ := h
  exact .credited id t t' u hf rfl (hu ▸ hown) (hu ▸ rfl) hnm hu hpen hst hpos hfr

theorem completeExternalTopUpTx_eq_ok (h : completeExternalTopUpTx env s db = .ok (r, db')) :
    ∃ id t, db.findTopUp s.tradeNo = some (id, t) ∧ (bindSettledEvidence id t s db = .ok (r, db') ∨
        settlePending env id t s db = .ok (r, db')) := by
  simp only [completeExternalTopUpTx, eq_ok] at h
  obtain ⟨⟨id, t⟩, hf, -, -, -, h⟩ := h
  refine ⟨id, t, hf, ?_⟩
  split at h
  · exact .inl h
  · exact .inr h

theorem completeExternalTopUpTx_effect
    (h : completeExternalTopUpTx env s db = .ok (r, db')) : Effect s.tradeNo db db' := by
  obtain ⟨id, t, hf, h | h⟩ := completeExternalTopUpTx_eq_ok h
  · rcases bindSettledEvidence_eq_ok h with rfl | ⟨_, hsave⟩
    · exact .kept rfl rfl
    · obtain ⟨rfl, hfr⟩ := saveTopUp_eq_ok hsave
      exact .changed id t _ hf rfl rfl rfl rfl Iff.rfl rfl hfr
  · exact (settlePending_eq_ok h).effect hf rfl rfl rfl

/-- All attempts together: nothing, or one of them committed. -/
theorem completeExternalTopUpOnDB_eq_ok {attempts : ℕ}
    (h : completeExternalTopUpOnDB env s db attempts = .ok (r, db')) :
    db' = db ∨ completeExternalTopUpTx env s db = .ok (r, db') := by
  induction attempts with
  | zero => cases h
  | succ _ ih =>
    unfold completeExternalTopUpOnDB at h
    split at h
    · rename_i out hout
      cases h
      exact .inr hout
    · split at h
      · split at h
        · obtain ⟨⟩ := Except.ok.inj h
          exact .inl rfl
        · split at h
          · cases h
          · exact ih h
      · cases h

variable {completed : Bool} {status : OrderStatus} {reason provider name : String}

/-- A completion by hand: nothing for an order that was successful, and a settlement otherwise. -/
theorem manualCompleteTopUp_eq_ok (h : manualCompleteTopUp env tradeNo db = .ok (completed, db')) :
    db' = db ∨ ∃ id t, db.findTopUp tradeNo = some (id, t) ∧ Settles env db id t { t with
        creditedQuota := normalizedTopUpCreditedQuota env t
        completeTime := env.now
        status := .success } db' := by
  obtain ⟨_, h⟩ := of_bind h
  obtain ⟨⟨id, t⟩, hf, h⟩ := bind_eq_ok.1 h
  simp only [] at h
  split at h
  · obtain ⟨⟩ := pure_eq_ok.1 h
    exact .inl rfl
  · simp only [eq_ok] at h
    obtain ⟨hpen, -, _, hsave, _, hcr, _, hdis, -, rfl⟩ := h
    exact .inr ⟨id, t, orFail_eq_ok.1 hf, .of_writes hpen hsave hcr hdis⟩

/-- Closing a pending order. -/
theorem effect_of_close {db₁ : Db} {completeTime : ℤ}
    (hf : db.findTopUp tradeNo = some (id, t)) (hpen : t.status = .pending)
    (hst : status ≠ .success)
    (hsave : db.saveTopUp id { t with status, completeTime, failureReasonCode := reason } = .ok db₁)
    {discounts : Discounts} : Effect tradeNo db { db₁ with discounts } := by
  obtain ⟨rfl, hfr⟩ := saveTopUp_eq_ok hsave
  refine .changed id t _ hf rfl rfl rfl rfl ?_ rfl hfr
  simp [hst, hpen]

/-! ## Runs -/

/-- A step of a run: one of the operations, or something that others do. -/
inductive TopUpStep
  | complete (env : Env) (s : Settlement)
  /-- One attempt of a call of `completeExternalTopUp`, between which others may write. -/
  | attempt (env : Env) (s : Settlement)
  | manual (env : Env) (tradeNo : String)
  | failCheckout (env : Env) (tradeNo expectedPaymentProvider reason : String)
  | updateStatus (tradeNo expectedPaymentProvider : String) (targetStatus : OrderStatus)
  | other (db : Db)

namespace TopUpStep

/-- A transaction that fails is rolled back. -/
def exec : TopUpStep → Db → Db
  | .complete env s, db => commit (completeExternalTopUp env s db) db
  | .attempt env s, db => commit (completeExternalTopUpTx env (normalizeSettlement s) db) db
  | .manual env tradeNo, db => commit (manualCompleteTopUp env tradeNo db) db
  | .failCheckout env tradeNo provider reason, db =>
    (failPendingTopUpForCheckout env tradeNo provider reason db).toOption.getD db
  | .updateStatus tradeNo provider status, db =>
    (updatePendingTopUpStatus tradeNo provider status db).toOption.getD db
  | .other db', _ => db'

/-- The trade number that a step is for. -/
def tradeNo? : TopUpStep → Option String
  | .complete _ s | .attempt _ s => some (trimSpace s.tradeNo)
  | .manual _ tradeNo => some tradeNo
  | .failCheckout _ tradeNo _ _ => some (trimSpace tradeNo)
  | .updateStatus tradeNo _ _ => some tradeNo
  | .other _ => none

end TopUpStep

/-- The order without its refunds. -/
def TopUp.unrefunded (t : TopUp) : TopUp := { t with refundedAmountMicros := 0, refundedQuota := 0 }

/-- What others leave of the orders: they may add orders and refund them, and do anything to the
wallets. -/
structure OthersKeep (db db' : Db) : Prop where
  orders : ∀ id t, db.topUps.get? id = some t →
    ∃ t', db'.topUps.get? id = some t' ∧ t'.unrefunded = t.unrefunded
  indexed : db'.Indexed

/-- The steps of the runs in question: no status is set to `success` without a credit. -/
def TopUpStep.Admissible : TopUpStep → Db → Prop
  | .updateStatus _ _ status, _ => status ≠ .success
  | .other db', db => OthersKeep db db'
  | _, _ => True

/-- The wallets that a step for the trade number changes. -/
def TopUpStep.credits (tradeNo : String) (i : TopUpStep) (db : Db) : List (ℕ × ℤ) :=
  if i.tradeNo? = some tradeNo then walletChanges db.users (i.exec db).users else []

/-- What becomes of an order, with the wallet changes of the steps for it: it keeps its success, and
the one change is the credit when it becomes successful. -/
structure Advances (t t' : TopUp) (credits : List (ℕ × ℤ)) : Prop where
  user : t'.userId = t.userId
  success : t.status = .success → t'.status = .success ∧ t'.creditedQuota = t.creditedQuota
  credits : credits = if t.status ≠ .success ∧ t'.status = .success then
    [(t.userId, t'.creditedQuota)] else []

namespace Advances

theorem of_status (hu : t'.userId = t.userId) (hst : t'.status = .success ↔ t.status = .success)
    (hquo : t'.creditedQuota = t.creditedQuota) : Advances t t' [] := by
  refine ⟨hu, fun h => ⟨hst.2 h, hquo⟩, (if_neg ?_).symm⟩
  exact fun h => h.1 (hst.1 h.2)

theorem trans (h : Advances t t' cs) (h' : Advances t' t'' cs') : Advances t t'' (cs ++ cs') := by
  refine ⟨h'.user.trans h.user, fun hsuc => ?_, ?_⟩
  · obtain ⟨hsuc', hquo⟩ := h.success hsuc
    exact ⟨(h'.success hsuc').1, (h'.success hsuc').2.trans hquo⟩
  · rw [h.credits, h'.credits, h.user]
    -- the order is successful already, becomes so before, becomes so now, or does not
    by_cases hsta : t.status = .success
    · have hmid := (h.success hsta).1
      simp [hsta, hmid]
    · by_cases hmid : t'.status = .success
      · obtain ⟨hend, hquo⟩ := h'.success hmid
        simp [hsta, hmid, hend, hquo]
      · simp [hsta, hmid]

end Advances

/-- The orders that a transaction is not for stay, and the one that it is for advances. -/
theorem Effect.advances (h : Effect name db db') (hind : db.Indexed)
    (hf : db.findTopUp tradeNo = some (id, t)) : ∃ t', db'.findTopUp tradeNo = some (id, t') ∧
      Advances t t' (if name = tradeNo then walletChanges db.users db'.users else []) := by
  have hind' := h.indexed hind
  obtain ⟨hg, hnm⟩ := Db.get_of_findTopUp hf
  have hoth {j : ℕ} {t₁ t₂ : TopUp} (hf₁ : db.findTopUp name = some (j, t₁))
      (hne : name ≠ tradeNo) (htop : db'.topUps = db.topUps.modify j (fun _ => t₂)) :
      db'.findTopUp tradeNo = some (id, t) := by
    refine hind'.findTopUp_iff.2 ⟨?_, hnm⟩
    rw [htop, get?_modify_of_ne _ _ ?_]
    · exact hg
    · rintro rfl
      obtain ⟨hg₁, hnm₁⟩ := Db.get_of_findTopUp hf₁
      obtain rfl := mem_unique hg₁ hg
      exact hne (hnm₁.symm.trans hnm)
  have hself {t₂ : TopUp} (hnm₂ : t₂.tradeNo = t.tradeNo)
      (htop : db'.topUps = db.topUps.modify id (fun _ => t₂)) :
      db'.findTopUp tradeNo = some (id, t₂) := by
    refine hind'.findTopUp_iff.2 ⟨?_, hnm₂.trans hnm⟩
    rw [htop, get?_modify_self, hg]
    rfl
  by_cases heq : name = tradeNo
  · subst heq
    rw [if_pos rfl]
    cases h with
    | kept htop hus =>
      refine ⟨t, (congrArg (Table.first? · _) htop).trans hf, ?_⟩
      rw [hus, walletChanges_self]
      exact .of_status rfl Iff.rfl rfl
    | changed _ _ t₂ hf₁ htop hus hnm₂ hu hst hquo =>
      obtain ⟨⟩ := mem_unique hf₁ hf
      refine ⟨t₂, hself hnm₂ htop, ?_⟩
      rw [hus, walletChanges_self]
      exact .of_status hu hst hquo
    | credited _ _ t₂ _ hf₁ htop hown hus hnm₂ hu hpen hsuc hquo =>
      obtain ⟨⟩ := mem_unique hf₁ hf
      refine ⟨t₂, hself hnm₂ htop, hu, ?_, ?_⟩
      · rw [hpen]
        exact fun h => nomatch h
      · rw [hus, walletChanges_addQuota hown hquo.ne', hpen, if_pos ⟨nofun, hsuc⟩]
  · rw [if_neg heq]
    refine ⟨t, ?_, .of_status rfl Iff.rfl rfl⟩
    cases h with
    | kept htop => exact (congrArg (Table.first? · _) htop).trans hf
    | changed _ _ _ hf₁ htop | credited _ _ _ _ hf₁ htop => exact hoth hf₁ heq htop

/-- What a step for a trade number does. -/
theorem TopUpStep.effect (hok : i.Admissible db)
    (hnm : i.tradeNo? = some name) : Effect name db (i.exec db) := by
  cases i with
  | complete env s =>
    cases hnm
    rw [exec]
    cases h : completeExternalTopUp env s db with
    | error => exact .kept rfl rfl
    | ok =>
      obtain ⟨_, h⟩ := of_bind h
      rcases completeExternalTopUpOnDB_eq_ok h with rfl | h
      · exact .kept rfl rfl
      · exact completeExternalTopUpTx_effect h
  | attempt env s =>
    cases hnm
    rw [exec]
    cases h : completeExternalTopUpTx env (normalizeSettlement s) db with
    | error => exact .kept rfl rfl
    | ok => exact completeExternalTopUpTx_effect h
  | manual env tradeNo =>
    obtain rfl := some.inj hnm
    rw [exec]
    cases h : manualCompleteTopUp env tradeNo db with
    | error => exact .kept rfl rfl
    | ok =>
      rcases manualCompleteTopUp_eq_ok h with rfl | ⟨id, t, hf, hset⟩
      · exact .kept rfl rfl
      · exact hset.effect hf rfl rfl rfl
  | failCheckout env tradeNo provider reason =>
    cases hnm
    rw [exec]
    cases h : failPendingTopUpForCheckout env tradeNo provider reason db with
    | error => exact .kept rfl rfl
    | ok =>
      simp only [failPendingTopUpForCheckout, eq_ok] at h
      obtain ⟨-, -, -, ⟨id, t⟩, hf, -, hpen, db₁, hsave, rfl⟩ := h
      have hst : OrderStatus.failed ≠ .success := by decide
      split <;> exact effect_of_close hf hpen hst hsave
  | updateStatus tradeNo provider status =>
    obtain rfl := some.inj hnm
    rw [exec]
    cases h : updatePendingTopUpStatus tradeNo provider status db with
    | error => exact .kept rfl rfl
    | ok =>
      simp only [updatePendingTopUpStatus, eq_ok] at h
      obtain ⟨-, ⟨id, t⟩, hf, -, hpen, _, hsave, rfl⟩ := h
      split <;> exact effect_of_close hf hpen hok hsave
  | other => cases hnm

theorem TopUpStep.indexed (hok : i.Admissible db) (hind : db.Indexed) : (i.exec db).Indexed := by
  cases hnm : i.tradeNo? with
  | some => exact (i.effect hok hnm).indexed hind
  | none =>
    cases i with
    | other => exact hok.indexed
    | _ => cases hnm

/-- A step advances every order. -/
theorem TopUpStep.advances (hok : i.Admissible db) (hind : db.Indexed)
    (hf : db.findTopUp tradeNo = some (id, t)) :
    ∃ t', (i.exec db).findTopUp tradeNo = some (id, t') ∧ Advances t t' (i.credits tradeNo db) := by
  rw [credits]
  cases hnm : i.tradeNo? with
  | some =>
    simp only [some_inj]
    exact (i.effect hok hnm).advances hind hf
  | none =>
    cases i with
    | other =>
      obtain ⟨hg, hnm⟩ := Db.get_of_findTopUp hf
      obtain ⟨t', hg', hs⟩ := hok.orders id t hg
      have hnm' : t'.tradeNo = t.tradeNo := (congrArg TopUp.tradeNo hs :)
      refine ⟨t', hok.indexed.findTopUp_iff.2 ⟨hg', hnm'.trans hnm⟩, ?_⟩
      have hst : t'.status = t.status := (congrArg TopUp.status hs :)
      refine .of_status (congrArg TopUp.userId hs :) ?_ (congrArg TopUp.creditedQuota hs :)
      rw [hst]
    | _ => cases hnm

/-- The order that was `t` has advanced, with the credits `seen`. -/
structure AdvancedFrom (tradeNo : String) (id : ℕ) (t : TopUp) (seen : List (ℕ × ℤ)) (db : Db) :
    Prop where
  indexed : db.Indexed
  order : ∃ t', db.findTopUp tradeNo = some (id, t') ∧ Advances t t' seen

open TopUpStep

theorem AdvancedFrom.step (seen : List (ℕ × ℤ)) (db : Db) (i : TopUpStep) (hok : i.Admissible db)
    (h : AdvancedFrom tradeNo id t seen db) :
    AdvancedFrom tradeNo id t (seen ++ i.credits tradeNo db) (i.exec db) := by
  obtain ⟨t', hf, hadv⟩ := h.order
  obtain ⟨t'', hf', hs⟩ := advances hok h.indexed hf
  exact ⟨TopUpStep.indexed hok h.indexed, t'', hf', hadv.trans hs⟩

theorem indexed_run {steps : List TopUpStep} (hind : db.Indexed)
    (hss : Along exec TopUpStep.Admissible db steps) :
    (run exec db steps).Indexed :=
  run_rule (fun _ _ hok h => indexed hok h) hind hss

/-- **Top-ups are credited once.** In a run in which no status is set to `success` by hand, from any
point on:

* every order stays, and the wallet changes made by the steps for it are one credit of its recorded
  quota to its user if it becomes successful, and none otherwise;
* a successful order stays successful, with the same quota;
* no event and no transaction of a provider belongs to two orders. -/
theorem topUp_credited_once {steps : List TopUpStep} (hindexed : db.Indexed)
    (hsteps : Along TopUpStep.exec TopUpStep.Admissible db steps) :
    (∀ before after, steps = before ++ after → ∀ tradeNo id t,
      (run TopUpStep.exec db before).findTopUp tradeNo = some (id, t) →
      ∃ t', (run TopUpStep.exec db steps).findTopUp tradeNo = some (id, t') ∧
        Advances t t' (observed TopUpStep.exec (TopUpStep.credits tradeNo)
          (run TopUpStep.exec db before) after)) ∧
    (run TopUpStep.exec db steps).Indexed := by
  refine ⟨?_, indexed_run hindexed hsteps⟩
  rintro before after rfl tradeNo id t hfound
  obtain ⟨hbefore, hafter⟩ := along_append.1 hsteps
  have hrun : run exec db (before ++ after) =
      run exec (run exec db before) after := List.foldl_append
  rw [hrun]
  have hstart : AdvancedFrom tradeNo id t [] (run exec db before) :=
    ⟨indexed_run hindexed hbefore, t, hfound, .of_status rfl Iff.rfl rfl⟩
  exact (observed_rule AdvancedFrom.step hstart hafter).order

/-! ### Two orders and one event -/

/-- A pending order of 500000 units for 5 dollars. -/
def sampleTopUp (tradeNo : String) : TopUp where
  userId := 1
  amount := 1
  creditedQuota := 500000
  expectedAmountMicros := 5000000
  settlementCurrency := "USD"
  tradeNo
  paymentMethod := "stripe"
  paymentProvider := "stripe"

/-- A user with an empty wallet and two orders. -/
def sampleDb : Db where
  users := Table.empty.insert ⟨0, 1, 1, false⟩
  contacts _ := {}
  topUps := (Table.empty.insert (sampleTopUp "T1")).insert (sampleTopUp "T2")
  discounts := ⟨Table.empty, UniqueTable.empty⟩
  ledger := Table.empty
  subscriptionTradeNos := []

def sampleEnv : Env := ⟨1000, 500000, fun n d => n / d⟩

/-- The evidence of the event `evt1` for an order. -/
def sampleSettlement (tradeNo : String) : Settlement where
  tradeNo
  paymentProvider := "stripe"
  settlementCurrency := "usd"
  settledAmountMicros := 5000000
  providerEventId := "evt1"

/-- The event is delivered for the first order twice, which is completed by hand as well, and then
for the second order, which is closed. -/
def sampleSteps : List TopUpStep :=
  [.complete sampleEnv (sampleSettlement "T1"), .complete sampleEnv (sampleSettlement "T1"),
    .manual sampleEnv "T1", .complete sampleEnv (sampleSettlement "T2"),
    .updateStatus "T2" "stripe" .expired]

theorem sampleDb_indexed : sampleDb.Indexed := by
  have hrs i t (h : sampleDb.topUps.get? i = some t) :
      i = 1 ∧ t = sampleTopUp "T1" ∨ i = 2 ∧ t = sampleTopUp "T2" := by
    rcases get?_insert_cases h with ⟨rfl, rfl⟩ | h
    · exact .inr ⟨rfl, rfl⟩
    · rcases get?_insert_cases h with ⟨rfl, rfl⟩ | h
      · exact .inl ⟨rfl, rfl⟩
      · cases h
  constructor
  · intro i j t t' hi hj hnm
    rcases hrs i t hi with ⟨rfl, rfl⟩ | ⟨rfl, rfl⟩ <;>
      rcases hrs j t' hj with ⟨rfl, rfl⟩ | ⟨rfl, rfl⟩ <;> simp_all [sampleTopUp]
  · intro i j t t' hi hj hne
    rcases hrs i t hi with ⟨rfl, rfl⟩ | ⟨rfl, rfl⟩ <;>
      rcases hrs j t' hj with ⟨rfl, rfl⟩ | ⟨rfl, rfl⟩ <;>
      simp [TopUp.Clashes, sampleTopUp]

theorem topUp_credited_once_sample :
    (∃ t, (run TopUpStep.exec sampleDb sampleSteps).findTopUp "T1" = some (1, t) ∧
        t.status = .success ∧ Advances (sampleTopUp "T1") t
          (observed TopUpStep.exec (TopUpStep.credits "T1") sampleDb sampleSteps)) ∧
      observed TopUpStep.exec (TopUpStep.credits "T1") sampleDb sampleSteps = [(1, 500000)] ∧
      observed TopUpStep.exec (TopUpStep.credits "T2") sampleDb sampleSteps = [] ∧
      walletOf (run TopUpStep.exec sampleDb sampleSteps).users 1 = 500000 := by
  have hsteps : Along exec TopUpStep.Admissible sampleDb sampleSteps :=
    ⟨trivial, trivial, trivial, trivial, nofun, trivial⟩
  have hstatus : ∀ x ∈ (run exec sampleDb sampleSteps).findTopUp "T1",
    x.2.status = .success := by decide +kernel
  obtain ⟨t, hfound', hadvances⟩ := (topUp_credited_once sampleDb_indexed hsteps).1 [] _ rfl "T1" 1
    (sampleTopUp "T1") (by decide +kernel)
  refine ⟨⟨t, hfound', hstatus _ hfound', hadvances⟩, ?_, ?_, ?_⟩ <;> decide +kernel

/-- With the target `success`, `updatePendingTopUpStatus` makes an order successful without a
credit. -/
theorem updateStatus_success_without_credit :
    (∃ x ∈ (run TopUpStep.exec sampleDb [.updateStatus "T1" "stripe" .success]).findTopUp "T1",
        x.2.status = .success) ∧
      observed TopUpStep.exec (TopUpStep.credits "T1") sampleDb
        [.updateStatus "T1" "stripe" .success] = [] := by
  constructor <;> decide +kernel

end LmmApi.Recharge
