import LmmApi.Subscription.Effect

/-!
# The usage ledger of a subscription

The used amount of a subscription is the sum of what the records charge to its current quota
version. A record charges its reservation to the version it was reserved in, until it is refunded,
and what its settlement adds to the version it was settled in. The latter version is stored nowhere,
so the runs here carry it beside the tables: `Observed` is the tables with the version in which each
record was settled.

`Balanced` is the invariant. With it, the two places that clamp a used amount at zero never see a
negative one.
-/

namespace LmmApi.Subscription

open Guarded Option Table

/-! ## Charges -/

/-- What a record that was settled in the version `settledVersion` charges to `version`. -/
def charge (settledVersion : ℤ) (r : PreConsumeRecord) (version : ℤ) : ℤ :=
  (if r.status ≠ .refunded ∧ r.reservedVersion = version then r.preConsumed else 0) +
    if r.status = .settled ∧ settledVersion = version then
      if settledVersion = r.reservedVersion then r.actualQuota - r.preConsumed - r.walletConsumed
      else max 0 (r.actualQuota - r.preConsumed) - r.walletConsumed
    else 0

/-- What a record charges to a version of the subscription `id`. -/
def chargeTo (settledVersion : ℕ → ℤ) (id : ℕ) (version : ℤ) (i : ℕ) (r : PreConsumeRecord) : ℤ :=
  if r.userSubscriptionId = id then charge (settledVersion i) r version else 0

/-- The sum of the charges to a version of the subscription `id`. -/
def charges (db : Db) (settledVersion : ℕ → ℤ) (id : ℕ) (version : ℤ) : ℤ :=
  db.records.sum (chargeTo settledVersion id version)

/-! ## Runs -/

/-- A transaction and what it reads besides the tables. -/
structure Event where
  env : Env
  op : Op

/-- The tables, and the version in which each record was settled. -/
structure Observed where
  db : Db
  settledVersion : ℕ → ℤ

/-- The status of a record. -/
def statusOf (db : Db) (i : ℕ) : Option RecordStatus :=
  (db.records.get? i).map PreConsumeRecord.status

/-- The current version of the subscription of a record. -/
def versionOf (db : Db) (i : ℕ) : Option ℤ := do
  let r ← db.records.get? i
  let sub ← db.subscriptions.get? r.userSubscriptionId
  return sub.quotaVersion

/-- Note the version of each record that has become settled. -/
def noteSettled (db db' : Db) (settledVersion : ℕ → ℤ) (i : ℕ) : ℤ :=
  if statusOf db i ≠ some .settled ∧ statusOf db' i = some .settled then
    (versionOf db' i).getD (settledVersion i)
  else settledVersion i

def Observed.step (s : Observed) (e : Event) : Observed :=
  let db := e.op.step e.env s.db
  ⟨db, noteSettled s.db db s.settledVersion⟩

/-- A run: any interleaving of transactions, each with its own time and plans. -/
def Observed.run (s : Observed) (events : List Event) : Observed := events.foldl Observed.step s

/-! ## The invariant -/

/-- A record whose amounts make no negative charge. -/
structure Sound (settledVersion : ℤ) (r : PreConsumeRecord) : Prop where
  reserved : 0 ≤ r.preConsumed
  intended : r.status = .settling → 0 ≤ r.actualQuota
  settled : r.status = .settled → settledVersion = r.reservedVersion →
    r.walletConsumed ≤ r.actualQuota
  later : r.status = .settled → settledVersion ≠ r.reservedVersion →
    r.walletConsumed ≤ max 0 (r.actualQuota - r.preConsumed)

/-- **The invariant of the usage ledger.** -/
structure Balanced (s : Observed) : Prop where
  used : ∀ id sub, s.db.subscriptions.get? id = some sub →
    sub.amountUsed = charges s.db s.settledVersion id sub.quotaVersion
  total : ∀ id sub, s.db.subscriptions.get? id = some sub → 0 < sub.amountTotal →
    sub.amountUsed ≤ sub.amountTotal
  sound : ∀ i r, s.db.records.get? i = some r → Sound (s.settledVersion i) r
  reserved : ∀ i r sub, s.db.records.get? i = some r →
    s.db.subscriptions.get? r.userSubscriptionId = some sub → r.reservedVersion ≤ sub.quotaVersion
  settled : ∀ i r sub, s.db.records.get? i = some r →
    s.db.subscriptions.get? r.userSubscriptionId = some sub → r.status = .settled →
    s.settledVersion i ≤ sub.quotaVersion

variable {s : Observed} {db' : Db}

variable {sub : UserSubscription} {r : PreConsumeRecord} {i : ℕ} {sv : ℕ → ℤ} {db : Db}
  {subDelta wallet : ℤ} {w : ℤ}

theorem charge_nonneg (h : Sound w r) (v : ℤ) : 0 ≤ charge w r v := by
  have hres := h.reserved
  unfold charge
  by_cases hset : r.status = .settled
  · have hcur := h.settled hset
    have hlat := h.later hset
    simp only [hset, ne_eq, reduceCtorEq, not_false_eq_true, true_and]
    split <;> split <;> (try split) <;> omega
  · simp only [hset, false_and, if_false, add_zero]
    split <;> omega

theorem chargeTo_nonneg (h : Balanced s) (id : ℕ) (v : ℤ)
    (hr : s.db.records.get? i = some r) : 0 ≤ chargeTo s.settledVersion id v i r := by
  unfold chargeTo
  split
  · exact charge_nonneg (h.sound i r hr) v
  · exact le_rfl

/-- The charge of one record is part of the used amount. -/
theorem charge_le_used (h : Balanced s) (hr : s.db.records.get? i = some r)
    (hsub : s.db.subscriptions.get? r.userSubscriptionId = some sub) :
    charge (s.settledVersion i) r sub.quotaVersion ≤ sub.amountUsed := by
  have htm : chargeTo s.settledVersion r.userSubscriptionId sub.quotaVersion i r =
      charge (s.settledVersion i) r sub.quotaVersion := by simp [chargeTo]
  rw [h.used _ _ hsub, charges, ← htm]
  exact le_sum hr fun _ _ hj => chargeTo_nonneg h _ _ hj

variable {id : ℕ} {r r' : PreConsumeRecord} {used : ℤ}

theorem used_nonneg (h : Balanced s)
    (hsub : s.db.subscriptions.get? id = some sub) : 0 ≤ sub.amountUsed := by
  rw [h.used _ _ hsub]
  exact sum_nonneg fun _ _ hr => chargeTo_nonneg h _ _ hr

/-- A version after the current one has no charges. -/
theorem charges_next (h : Balanced s) (hsub : s.db.subscriptions.get? id = some sub) :
    charges s.db s.settledVersion id (sub.quotaVersion + 1) = 0 := by
  refine sum_eq_zero fun i r hr => ?_
  unfold chargeTo
  split
  · rename_i hid
    subst hid
    have hres := h.reserved i r sub hr hsub
    have hset := h.settled i r sub hr hsub
    unfold charge
    rw [if_neg (by omega), if_neg (by rintro ⟨h₁, h₂⟩; have := hset h₁; omega), add_zero]
  · rfl

/-! ## What keeps it -/

theorem noteSettled_eq_self (h : statusOf db' i = some .settled → statusOf db i = some .settled) :
    noteSettled db db' sv i = sv i := by
  rw [noteSettled, if_neg fun hnew => hnew.1 (h hnew.2)]

theorem statusOf_saveRecord
    (hr : db.records.get? i = some r) (hrc : db'.records = db.records.modify i fun _ => r') :
    statusOf db' i = some r'.status ∧ ∀ j, j ≠ i → statusOf db' j = statusOf db j := by
  unfold statusOf
  rw [hrc]
  refine ⟨?_, fun j hj => ?_⟩
  · rw [get?_modify_self, hr]
    rfl
  · rw [get?_modify_of_ne _ _ hj]

/-- Only the charge of the record that changes is different. -/
theorem charges_saveRecord
    (hr : s.db.records.get? i = some r) (hrc : db'.records = s.db.records.modify i fun _ => r')
    (hsv : ∀ j, j ≠ i → sv j = s.settledVersion j) (id : ℕ) (v : ℤ) :
    charges db' sv id v = charges s.db s.settledVersion id v -
      chargeTo s.settledVersion id v i r + chargeTo sv id v i r' := by
  have hsum : s.db.records.sum (chargeTo sv id v) = s.db.records.sum
      (chargeTo s.settledVersion id v) - chargeTo s.settledVersion id v i r +
        chargeTo sv id v i r := by
    refine sum_update hr fun j b _ hj => ?_
    rw [chargeTo, chargeTo, hsv j hj]
  rw [charges, charges, hrc, sum_modify hr, hsum]
  ring

/-- The subscription `sub'` is `sub` with another used amount that fits its total. -/
structure Recharged (sub sub' : UserSubscription) (difference : ℤ) : Prop where
  version : sub'.quotaVersion = sub.quotaVersion
  used : sub'.amountUsed = sub.amountUsed + difference
  fits : 0 < sub'.amountTotal → sub'.amountUsed ≤ sub'.amountTotal

section

variable (h : Balanced s)
include h

/-- A change of one record that moves every used amount by the difference of the record's charges.
-/
theorem Balanced.saveRecord
    (hr : s.db.records.get? i = some r) (hrc : db'.records = s.db.records.modify i fun _ => r')
    (hid : r'.userSubscriptionId = r.userSubscriptionId)
    (hres : r'.reservedVersion = r.reservedVersion)
    (hsv : ∀ j, j ≠ i → sv j = s.settledVersion j) (hsnd : Sound (sv i) r')
    (hset : r'.status = .settled → ∀ sub,
      s.db.subscriptions.get? r.userSubscriptionId = some sub → sv i ≤ sub.quotaVersion)
    (hsubs : ∀ id sub', db'.subscriptions.get? id = some sub' → ∃ sub,
      s.db.subscriptions.get? id = some sub ∧ Recharged sub sub'
        (chargeTo sv id sub.quotaVersion i r' -
          chargeTo s.settledVersion id sub.quotaVersion i r)) : Balanced ⟨db', sv⟩ := by
  have records {j b} (hj : db'.records.get? j = some b) := get?_modify_cases hr (hrc ▸ hj :)
  constructor
  case used =>
    intro id sub' hg
    obtain ⟨sub, hsub, hcha⟩ := hsubs id sub' hg
    rw [charges_saveRecord hr hrc hsv, hcha.version, hcha.used, h.used id sub hsub]
    ring
  case total =>
    intro id sub' hg
    obtain ⟨sub, -, hcha⟩ := hsubs id sub' hg
    exact hcha.fits
  case sound =>
    intro j b hj
    obtain ⟨rfl, rfl⟩ | ⟨hne, hj⟩ := records hj
    · exact hsnd
    · dsimp only
      rw [hsv j hne]
      exact h.sound j b hj
  case reserved =>
    intro j b sub' hj hg
    obtain ⟨sub, hsub, hcha⟩ := hsubs _ sub' hg
    rw [hcha.version]
    obtain ⟨rfl, rfl⟩ | ⟨-, hj⟩ := records hj
    · rw [hres]
      exact h.reserved j r sub hr (hid ▸ hsub)
    · exact h.reserved j b sub hj hsub
  case settled =>
    intro j b sub' hj hg hst
    obtain ⟨sub, hsub, hcha⟩ := hsubs _ sub' hg
    rw [hcha.version]
    obtain ⟨rfl, rfl⟩ | ⟨hne, hj⟩ := records hj
    · exact hset hst sub (hid ▸ hsub)
    · dsimp only
      rw [hsv j hne]
      exact h.settled j b sub hj hsub hst

/-- Subscriptions that stay fit a record whose charge to the current version stays. -/
theorem Balanced.recharged_of_eq (hid : r'.userSubscriptionId = r.userSubscriptionId)
    (hsubs : db'.subscriptions = s.db.subscriptions)
    (hch : ∀ sub, s.db.subscriptions.get? r.userSubscriptionId = some sub →
      charge (s.settledVersion i) r' sub.quotaVersion =
        charge (s.settledVersion i) r sub.quotaVersion)
    (id : ℕ) (sub : UserSubscription) (hg : db'.subscriptions.get? id = some sub) :
    ∃ sub₀, s.db.subscriptions.get? id = some sub₀ ∧ Recharged sub₀ sub
      (chargeTo s.settledVersion id sub₀.quotaVersion i r' -
        chargeTo s.settledVersion id sub₀.quotaVersion i r) := by
  rw [hsubs] at hg
  refine ⟨sub, hg, rfl, ?_, h.total id sub hg⟩
  have hs : chargeTo s.settledVersion id sub.quotaVersion i r' =
      chargeTo s.settledVersion id sub.quotaVersion i r := by
    unfold chargeTo
    rw [hid]
    split
    · rename_i heq
      exact hch sub (heq ▸ hg)
    · rfl
  rw [hs, sub_self, add_zero]

/-- The record's subscription takes the difference of its charges. -/
theorem Balanced.recharged_of_used (hid : r'.userSubscriptionId = r.userSubscriptionId)
    (hsub : s.db.subscriptions.get? r.userSubscriptionId = some sub) (hsubs : db'.subscriptions =
      s.db.subscriptions.modify r.userSubscriptionId fun _ => { sub with amountUsed := used })
    (hud : used = sub.amountUsed + (charge (sv i) r' sub.quotaVersion -
      charge (s.settledVersion i) r sub.quotaVersion))
    (hft : 0 < sub.amountTotal → used ≤ sub.amountTotal) (id : ℕ) (sub' : UserSubscription)
    (hg : db'.subscriptions.get? id = some sub') :
    ∃ sub₀, s.db.subscriptions.get? id = some sub₀ ∧ Recharged sub₀ sub'
      (chargeTo sv id sub₀.quotaVersion i r' -
        chargeTo s.settledVersion id sub₀.quotaVersion i r) := by
  rw [hsubs] at hg
  obtain ⟨rfl, rfl⟩ | ⟨hne, hg⟩ := get?_modify_cases hsub hg
  · refine ⟨sub, hsub, rfl, ?_, hft⟩
    rw [chargeTo, chargeTo, if_pos hid, if_pos rfl]
    exact hud
  · refine ⟨sub', hg, rfl, ?_, h.total id sub' hg⟩
    rw [chargeTo, chargeTo, hid, if_neg (Ne.symm hne), if_neg (Ne.symm hne), sub_self, add_zero]

/-- A reset starts a version that has no charges. -/
theorem Balanced.reset (hs : ResetStep s.db db') : Balanced ⟨db', s.settledVersion⟩ := by
  obtain ⟨id, sub, sub', hsub, hren⟩ := hs
  have hver : sub.quotaVersion ≤ sub'.quotaVersion := by
    cases hren with
    | scheduled => exact le_rfl
    | renewed => exact Int.le_add_one le_rfl
  -- A subscription's version does not go back.
  have before {j b} (hj : (s.db.saveSubscription id sub').subscriptions.get? j = some b) :
      ∃ b₀, s.db.subscriptions.get? j = some b₀ ∧ b₀.quotaVersion ≤ b.quotaVersion := by
    obtain ⟨rfl, rfl⟩ | ⟨-, hj⟩ := get?_modify_cases hsub hj
    · exact ⟨sub, hsub, hver⟩
    · exact ⟨b, hj, le_rfl⟩
  constructor
  case used =>
    intro j b hj
    obtain ⟨rfl, rfl⟩ | ⟨-, hj⟩ := get?_modify_cases hsub hj
    · cases hren with
      | scheduled => exact h.used _ sub hsub
      | renewed => exact (charges_next h hsub).symm
    · exact h.used j b hj
  case total =>
    intro j b hj hpos
    obtain ⟨rfl, rfl⟩ | ⟨-, hj⟩ := get?_modify_cases hsub hj
    · cases hren with
      | scheduled => exact h.total _ sub hsub hpos
      | renewed => exact hpos.le
    · exact h.total j b hj hpos
  case sound => exact h.sound
  case reserved =>
    intro i r b hr hb
    obtain ⟨b₀, hb₀, hle⟩ := before hb
    exact (h.reserved i r b₀ hr hb₀).trans hle
  case settled =>
    intro i r b hr hb hst
    obtain ⟨b₀, hb₀, hle⟩ := before hb
    exact (h.settled i r b₀ hr hb₀ hst).trans hle

theorem Balanced.resets (hss : Resets s.db db') : Balanced ⟨db', s.settledVersion⟩ := by
  induction hss with
  | refl => exact h
  | tail _ hs ih => exact ih.reset hs

/-- A new record that charges its reservation to the current version. -/
theorem Balanced.reserve
    (hsub : s.db.subscriptions.get? id = some sub) (hid : r.userSubscriptionId = id)
    (hrc : db'.records = s.db.records.insert r)
    (hsubs : db'.subscriptions = s.db.subscriptions.modify id fun _ =>
      { sub with amountUsed := sub.amountUsed + r.preConsumed })
    (hst : r.status = .consumed) (hver : r.reservedVersion = sub.quotaVersion)
    (hpos : 0 ≤ r.preConsumed)
    (hft : 0 < sub.amountTotal → sub.amountUsed + r.preConsumed ≤ sub.amountTotal) :
    Balanced ⟨db', s.settledVersion⟩ := by
  have hch w v : charge w r v = if sub.quotaVersion = v then r.preConsumed else 0 := by
    simp [charge, hst, hver]
  have subs {j b} (hj : db'.subscriptions.get? j = some b) :=
    get?_modify_cases hsub (hsubs ▸ hj :)
  have records {i b} (hi : db'.records.get? i = some b) := get?_insert_cases (hrc ▸ hi :)
  have before {j b} (hj : db'.subscriptions.get? j = some b) :
      ∃ b₀, s.db.subscriptions.get? j = some b₀ ∧ b.quotaVersion = b₀.quotaVersion := by
    obtain ⟨rfl, rfl⟩ | ⟨-, hj⟩ := subs hj
    · exact ⟨sub, hsub, rfl⟩
    · exact ⟨b, hj, rfl⟩
  constructor
  case used =>
    intro j b hj
    rw [charges, hrc, sum_insert]
    obtain ⟨rfl, rfl⟩ | ⟨hne, hj⟩ := subs hj
    · rw [chargeTo, if_pos hid, hch, if_pos rfl]
      dsimp only
      rw [h.used _ _ hsub, charges]
    · rw [h.used _ _ hj, charges, chargeTo, if_neg (hid ▸ Ne.symm hne), add_zero]
  case total =>
    intro j b hj
    obtain ⟨rfl, rfl⟩ | ⟨-, hj⟩ := subs hj
    · exact hft
    · exact h.total j b hj
  case sound =>
    intro i b hi
    obtain ⟨rfl, rfl⟩ | hi := records hi
    · exact ⟨hpos, by simp [hst], by simp [hst], by simp [hst]⟩
    · exact h.sound i b hi
  case reserved =>
    intro i b sub' hi hb
    obtain ⟨sub₀, hsub₀, heq⟩ := before hb
    rw [heq]
    obtain ⟨rfl, rfl⟩ | hi := records hi
    · rw [hid, hsub] at hsub₀
      cases hsub₀
      exact hver.le
    · exact h.reserved i b sub₀ hi hsub₀
  case settled =>
    intro i b sub' hi hb hset
    obtain ⟨sub₀, hsub₀, heq⟩ := before hb
    rw [heq]
    obtain ⟨rfl, rfl⟩ | hi := records hi
    · simp [hst] at hset
    · exact h.settled i b sub₀ hi hsub₀ hset

end

/-! ## Steps -/

/-- The charge of a record that is not settled. -/
theorem charge_of_ne_settled (h : r.status ≠ .settled) (v : ℤ) :
    charge w r v = if r.status ≠ .refunded ∧ r.reservedVersion = v then r.preConsumed else 0 := by
  simp [charge, h]

section

variable (h : Balanced s) (hr : s.db.records.get? i = some r)
  (hsub : s.db.subscriptions.get? r.userSubscriptionId = some sub)
include h hr hsub

/-- The used amount covers a reservation of the current version that is not settled. -/
theorem preConsumed_le_used (hst : r.status = .consumed ∨ r.status = .settling)
    (hver : sub.quotaVersion = r.reservedVersion) : r.preConsumed ≤ sub.amountUsed := by
  have hle := charge_le_used h hr hsub
  rw [charge_of_ne_settled (by rcases hst with h | h <;> simp [h]), hver, if_pos] at hle
  · exact hle
  · rcases hst with h | h <;> simp [h]

/-- A settlement leaves a used amount that is not negative. -/
theorem settle_nonneg
    (hst : r.status = .settling) (hspl : Settlement r sub r.actualQuota subDelta wallet) :
    0 ≤ sub.amountUsed + subDelta := by
  by_cases hdown : subDelta < 0
  · obtain ⟨hver, hwal⟩ := hspl.down hdown
    have hdel := hspl.current hver
    have hcov := preConsumed_le_used h hr hsub (.inr hst) hver
    have hact := (h.sound i r hr).intended hst
    omega
  · have hud := used_nonneg h hsub
    omega

omit h hr hsub in
theorem clampUsed_of_nonneg (h : 0 ≤ used) : clampUsed used = used := if_neg (not_lt.2 h)

omit h hr hsub in
theorem noteSettled_of_records (h : db'.records = db.records) : noteSettled db db' sv = sv := by
  funext i
  refine noteSettled_eq_self fun hset => ?_
  rwa [statusOf, ← h]

omit h hr hsub in
theorem noteSettled_saveRecord
    (hr : db.records.get? i = some r) (hrc : db'.records = db.records.modify i fun _ => r')
    (hst : r'.status ≠ .settled) : noteSettled db db' sv = sv := by
  obtain ⟨hself, hoth⟩ := statusOf_saveRecord hr hrc
  funext j
  refine noteSettled_eq_self fun hset => ?_
  by_cases hj : j = i
  · subst hj
    rw [hself] at hset
    exact absurd (some.inj hset) hst
  · rwa [← hoth j hj]

omit h hr hsub in
theorem noteSettled_insert (hrc : db'.records = db.records.insert r) (hst : r.status ≠ .settled) :
    noteSettled db db' sv = sv := by
  funext i
  refine noteSettled_eq_self fun hset => ?_
  rw [statusOf, hrc, map_eq_some_iff] at hset
  obtain ⟨r', hr', hnew⟩ := hset
  obtain ⟨-, rfl⟩ | hr' := get?_insert_cases hr'
  · exact absurd hnew hst
  · rw [statusOf, hr', map_some, hnew]

omit h hr hsub in
theorem noteSettled_of_settled (sv : ℕ → ℤ)
    (hr : db.records.get? i = some r) (hold : r.status ≠ .settled)
    (hrc : db'.records = db.records.modify i fun _ => r') (hnew : r'.status = .settled)
    (hsub : db'.subscriptions.get? r'.userSubscriptionId = some sub) :
    noteSettled db db' sv i = sub.quotaVersion ∧ ∀ j, j ≠ i → noteSettled db db' sv j = sv j := by
  obtain ⟨hself, hoth⟩ := statusOf_saveRecord hr hrc
  refine ⟨?_, fun j hj => noteSettled_eq_self fun h => by rwa [← hoth j hj]⟩
  have hbef : statusOf db i ≠ some .settled := by simpa [statusOf, hr] using hold
  have hver : versionOf db' i = some sub.quotaVersion := by
    simp [versionOf, hrc, get?_modify_self, hr, hsub]
  rw [noteSettled, if_pos ⟨hbef, by rw [hself, hnew]⟩, hver, getD_some]

omit h hr hsub in
/-- A settled record charges what the settlement put on the subscription. -/
theorem charge_settled (hst : r.status = .settling) (tokenConsumed : ℤ)
    (h : Settlement r sub r.actualQuota subDelta wallet) :
    charge sub.quotaVersion { r with status := .settled, walletConsumed := wallet, tokenConsumed }
      sub.quotaVersion - charge w r sub.quotaVersion = subDelta := by
  rw [charge_of_ne_settled (r := r) (by simp [hst])]
  by_cases hver : sub.quotaVersion = r.reservedVersion
  · simp [charge, hst, hver, h.current hver]
  · simp [charge, hver, Ne.symm hver, h.later hver]

omit h hr hsub in
theorem sound_settled (hsnd : Sound w r) (hst : r.status = .settling) (tokenConsumed : ℤ)
    (h : Settlement r sub r.actualQuota subDelta wallet) : Sound sub.quotaVersion
      { r with status := .settled, walletConsumed := wallet, tokenConsumed } := by
  have hres := hsnd.reserved
  have hact := hsnd.intended hst
  constructor
  case reserved => exact hres
  case intended => simp
  case settled =>
    intro _ hver
    have hdel := h.current hver
    have hdown := h.down
    dsimp only
    by_cases hneg : subDelta < 0
    · have hwal := (hdown hneg).2
      omega
    · omega
  case later =>
    intro _ hver
    have hdel := h.later hver
    have hup : ¬subDelta < 0 := fun hneg => hver (h.down hneg).1
    dsimp only
    omega

/-- A settlement is noted with the version that its subscription has and keeps. -/
theorem Balanced.settle {subDelta wallet tokenConsumed : ℤ}
    (hst : r.status = .settling) (hspl : Settlement r sub r.actualQuota subDelta wallet)
    (hrc : db'.records = s.db.records.modify i fun _ =>
      { r with status := .settled, walletConsumed := wallet, tokenConsumed })
    (hsubs : db'.subscriptions = s.db.subscriptions.modify r.userSubscriptionId fun _ =>
      { sub with amountUsed := sub.amountUsed + subDelta }) :
    Balanced ⟨db', noteSettled s.db db' s.settledVersion⟩ := by
  have hsub' : db'.subscriptions.get? r.userSubscriptionId =
      some { sub with amountUsed := sub.amountUsed + subDelta } := by
    rw [hsubs, get?_modify_self, hsub, map_some]
  obtain ⟨(hself : _ = sub.quotaVersion), hoth⟩ :=
    noteSettled_of_settled s.settledVersion hr (by simp [hst]) hrc rfl hsub'
  refine h.saveRecord hr hrc rfl rfl hoth ?_ ?_ (h.recharged_of_used rfl hsub hsubs ?_ ?_)
  · rw [hself]
    exact sound_settled (h.sound i r hr) hst _ hspl
  · intro _ sub₀ hsub₀
    obtain rfl := mem_unique hsub hsub₀
    exact hself.le
  · rw [hself]
    exact congrArg _ (charge_settled hst _ hspl).symm
  · intro hpos
    have htot := h.total _ sub hsub hpos
    have hft := hspl.fits hpos
    omega

omit hr hsub in
/-- **Every transaction keeps the ledger balanced.** -/
theorem Balanced.step (e : Event) : Balanced (s.step e) := by
  have heff := e.op.effect e.env s.db
  unfold Observed.step
  generalize e.op = op at heff ⊢
  dsimp only
  generalize op.step e.env s.db = db' at heff ⊢
  cases heff with
  | idle =>
    rw [noteSettled_of_records rfl]
    exact h
  | reset _ _ hs =>
    have hrc := (Resets.kept (.single hs)).2.2
    rw [noteSettled_of_records hrc]
    exact h.reset hs
  | reserved _ _ _ _ _ hres _ _ _ _ hg hpos hft =>
    have hrc := hres.kept.2.2
    rw [noteSettled_insert (congrArg (Table.insert · _) hrc) fun hset => by
      cases hset]
    exact (h.resets hres).reserve hg rfl rfl rfl rfl rfl hpos.le hft
  | raised _ _ _ i r _ _ row hst hmore hg hver hft =>
    have hud := used_nonneg h hg
    rw [clampUsed_of_nonneg (by omega)] at hft ⊢
    rw [noteSettled_saveRecord row.get rfl (by simp [hst])]
    refine h.saveRecord row.get rfl rfl rfl (fun _ _ => rfl) ?_ (by simp [hst])
      (h.recharged_of_used rfl hg rfl ?_ hft)
    · have hrese := (h.sound i r row.get).reserved.trans hmore.le
      exact ⟨hrese, by simp [hst], by simp [hst], by simp [hst]⟩
    · rw [charge_of_ne_settled (by simp [hst]), charge_of_ne_settled (by simp [hst])]
      simp [hst, hver]
  | intended _ _ _ i r row hst hnn =>
    rw [noteSettled_saveRecord row.get rfl (by simp)]
    refine h.saveRecord row.get rfl rfl rfl (fun _ _ => rfl) ?_ (by simp)
      (h.recharged_of_eq rfl rfl fun sub _ => ?_)
    · exact ⟨(h.sound i r row.get).reserved, fun _ => hnn, by simp, by simp⟩
    · rw [charge_of_ne_settled (by simp), charge_of_ne_settled (by simp [hst])]
      simp [hst]
  | settled _ _ _ _ _ _ _ _ _ _ row hst hact hg hspl =>
    subst hact
    have hud := settle_nonneg h row.get hg hst hspl
    rw [clampUsed_of_nonneg hud]
    exact h.settle row.get hg hst hspl rfl rfl
  | released _ _ i r _ _ row hst hg hver hft =>
    have hcov := preConsumed_le_used h row.get hg (.inl hst) hver
    rw [clampUsed_of_nonneg (by omega)] at hft ⊢
    rw [noteSettled_saveRecord row.get rfl (by simp)]
    refine h.saveRecord row.get rfl rfl rfl (fun _ _ => rfl)
      ⟨(h.sound i r row.get).reserved, by simp, by simp, by simp⟩ (by simp)
      (h.recharged_of_used rfl hg rfl ?_ hft)
    rw [charge_of_ne_settled (by simp), charge_of_ne_settled (by simp [hst])]
    simp [hst, hver, sub_eq_add_neg]
  | forgotten _ _ i r _ _ row hst hg hver =>
    rw [noteSettled_saveRecord row.get rfl (by simp)]
    refine h.saveRecord row.get rfl rfl rfl (fun _ _ => rfl)
      ⟨(h.sound i r row.get).reserved, by simp, by simp, by simp⟩ (by simp)
      (h.recharged_of_eq rfl rfl fun sub' hsub' => ?_)
    obtain rfl := mem_unique hg hsub'
    rw [charge_of_ne_settled (by simp), charge_of_ne_settled (by simp [hst])]
    simp [Ne.symm hver]

/-! ## Runs keep it -/

/-- No clamp at zero changes a used amount: the values that the transactions on the record `r` of
the subscription `sub` compare with zero are not negative. -/
structure NeverClamped (sub : UserSubscription) (r : PreConsumeRecord) : Prop where
  raise : r.status = .consumed → ∀ target, r.preConsumed < target →
    0 ≤ sub.amountUsed + (target - r.preConsumed)
  release : r.status = .consumed → sub.quotaVersion = r.reservedVersion →
    0 ≤ sub.amountUsed + -r.preConsumed
  settle : r.status = .settling → ∀ active split,
    settlementSplit r sub active r.actualQuota = .ok split →
    0 ≤ sub.amountUsed + versionedDelta r sub split.1

theorem Balanced.neverClamped : NeverClamped sub r where
  raise _ target hmore := by
    have hud := used_nonneg h hsub
    omega
  release hst hver := by
    have hcov := preConsumed_le_used h hr hsub (.inl hst) hver
    omega
  settle hst active split hspl := settle_nonneg h hr hsub hst (settlement_of_split hspl)

end

theorem balanced_start (sv : ℕ → ℤ)
    (hud : ∀ id sub, db.subscriptions.get? id = some sub → sub.amountUsed = 0)
    (hrc : ∀ i, db.records.get? i = none) : Balanced ⟨db, sv⟩ := by
  have hn {i r} {P : Prop} (hr : db.records.get? i = some r) : P := by
    rw [hrc i] at hr
    cases hr
  constructor
  case used =>
    intro id sub hsub
    rw [hud id sub hsub]
    exact (sum_eq_zero fun i r hr => hn hr).symm
  case total =>
    intro id sub hsub hpos
    rw [hud id sub hsub]
    exact hpos.le
  case sound => exact fun i r hr => hn hr
  case reserved => exact fun i r sub hr => hn hr
  case settled => exact fun i r sub hr => hn hr

/-- **The usage ledger of managed billing.** From subscriptions without usage and no records, any
interleaving of billing transactions and resets leaves every subscription with the used amount that
the records charge to its current version; no clamp at zero changes it, and it fits the total. -/
theorem used_eq_charges {db : Db}
    (hused : ∀ id sub, db.subscriptions.get? id = some sub → sub.amountUsed = 0)
    (hrecords : ∀ i, db.records.get? i = none) (events : List Event) :
    let s := Observed.run ⟨db, fun _ => 0⟩ events
    ∀ id sub, s.db.subscriptions.get? id = some sub →
      sub.amountUsed = charges s.db s.settledVersion id sub.quotaVersion ∧
      (∀ i r, s.db.records.get? i = some r → r.userSubscriptionId = id → NeverClamped sub r) ∧
      (0 < sub.amountTotal → sub.amountUsed ≤ sub.amountTotal) := by
  intro s id sub hsub
  have h : Balanced s := List.foldlRecOn events Observed.step
    (balanced_start _ hused hrecords) fun _ hb e _ => hb.step e
  refine ⟨h.used id sub hsub, ?_, h.total id sub hsub⟩
  rintro i r hr rfl
  exact h.neverClamped hr hsub

/-! ## A run over two periods -/

/-- A user with one token and one subscription. -/
def sampleDb : Db where
  users := Table.empty.insert ⟨1000, 1, userStatusEnabled, false⟩
  tokens := Table.empty.insert ⟨1, 500, 0, false, false⟩
  subscriptions := Table.empty.insert
    { userId := 1, planId := 1, amountTotal := 100, amountUsed := 0, quotaVersion := 0,
      startTime := 1000, endTime := 10000000, status := .active, lastResetTime := 0,
      nextResetTime := 0, allowWalletOverflow := true }
  records := Table.empty

/-- A transaction at a time, under a plan with daily resets. -/
def dailyEvent (now : ℤ) (op : Op) : Event := ⟨⟨now, fun _ => some ⟨"daily", 0⟩, 0⟩, op⟩

/-- Two requests reserve on the first day; a third one comes on the second day, before the two are
settled, one below its reservation and one above the quota that is left. -/
def sampleEvents : List Event :=
  [dailyEvent 1000 (.preConsume "a" 1 1 40 true), dailyEvent 1000 (.reserve "a" 1 60),
    dailyEvent 1000 (.preConsume "b" 1 0 20 true), dailyEvent 1000 (.settleIntent "a" 1 30),
    dailyEvent 90000 (.preConsume "c" 1 1 50 true), dailyEvent 90000 (.settleCommit "a" 1 30),
    dailyEvent 90000 (.settleIntent "b" 1 90), dailyEvent 90000 (.settleCommit "b" 1 90)]

theorem used_eq_charges_two_periods :
    ∃ sub, (Observed.run ⟨sampleDb, fun _ => 0⟩ sampleEvents).db.subscriptions.get? 1 = some sub ∧
      sub.amountUsed = 100 ∧ sub.quotaVersion = 1 ∧
      sub.amountUsed = charges (Observed.run ⟨sampleDb, fun _ => 0⟩ sampleEvents).db
        (Observed.run ⟨sampleDb, fun _ => 0⟩ sampleEvents).settledVersion 1 1 := by
  obtain ⟨sub, hsub, hused, hversion⟩ :
      ∃ sub ∈ (Observed.run ⟨sampleDb, fun _ => 0⟩ sampleEvents).db.subscriptions.get? 1,
        sub.amountUsed = 100 ∧ sub.quotaVersion = 1 := by decide +kernel
  have hstart id sub (hget : sampleDb.subscriptions.get? id = some sub) : sub.amountUsed = 0 := by
    obtain ⟨-, rfl⟩ | hget := get?_insert_cases hget
    · rfl
    · cases hget
  have hledger := (used_eq_charges hstart (fun _ => rfl) sampleEvents 1 sub hsub).1
  exact ⟨sub, hsub, hused, hversion, hversion ▸ hledger⟩

end LmmApi.Subscription
