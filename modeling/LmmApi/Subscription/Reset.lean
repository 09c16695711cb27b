import LmmApi.Lib.GoText
import LmmApi.Lib.GoTime
import LmmApi.Subscription.Data

/-!
# Period resets

A plan may reset the used amount of its subscriptions daily, weekly, monthly or after a number of
seconds. `calcNextResetTime` is the first reset instant after a base time, and
`maybeResetUserSubscriptionWithPlan` catches up with all reset instants that have passed: it starts
a new quota version with nothing used.
-/

namespace LmmApi.Subscription

open Guarded Go

/-- The reset periods of a plan. -/
inductive ResetPeriod
  | never
  | daily
  | weekly
  | monthly
  | custom
  deriving DecidableEq

def normalizeResetPeriod (period : String) : ResetPeriod :=
  match trimSpace period with
  | "daily" => .daily
  | "weekly" => .weekly
  | "monthly" => .monthly
  | "custom" => .custom
  | _ => .never

/-- The reset instant after `base`, if the plan resets. -/
def nextResetInstant (utcOffset base : ℤ) (plan : SubscriptionPlan) : Option ℤ :=
  let day := dayOf utcOffset base
  match normalizeResetPeriod plan.quotaResetPeriod with
  | .never => none
  | .daily => some (midnight utcOffset (day + 1))
  | .weekly =>
    -- Monday is 1 and Sunday 7.
    let weekday := if weekday day = 0 then 7 else weekday day
    some (midnight utcOffset (day + (8 - weekday)))
  | .monthly => some (midnight utcOffset (monthStart (monthOf day + 1)))
  | .custom =>
    if plan.quotaResetCustomSeconds ≤ 0 then none
    else some (addSeconds base plan.quotaResetCustomSeconds)

/-- `calcNextResetTime`: zero when the plan does not reset or the subscription ends before. -/
def calcNextResetTime (utcOffset base : ℤ) (plan : SubscriptionPlan) (endUnix : ℤ) : ℤ :=
  match nextResetInstant utcOffset base plan with
  | none => 0
  | some next => if 0 < endUnix ∧ endUnix < next then 0 else next

/-- The loop of `maybeResetUserSubscriptionWithPlanTx`: move on while the next reset instant has
passed. The values of `next` for which it goes on are between `1` and `now`. -/
def catchUp (utcOffset : ℤ) (plan : SubscriptionPlan) (endUnix now : ℤ) : ℕ → ℤ → ℤ → Option (ℤ × ℤ)
  | 0, _, _ => none
  | fuel + 1, base, next =>
    if 0 < next ∧ next ≤ now then
      catchUp utcOffset plan endUnix now fuel next (calcNextResetTime utcOffset next plan endUnix)
    else some (base, next)

/-- The instant from which the next reset is computed. -/
def resetBase (sub : UserSubscription) : ℤ :=
  if sub.lastResetTime ≤ 0 then sub.startTime else sub.lastResetTime

/-- `maybeResetUserSubscriptionWithPlanTx`: the subscription as it is saved. The loop moves in one
direction unless the plan's period is no time at all, in which case it does not end; so it ends
within `now` rounds or never. -/
def maybeResetUserSubscriptionWithPlan (env : Env) (sub : UserSubscription)
    (plan : SubscriptionPlan) : Except Failure UserSubscription :=
  let next₀ := calcNextResetTime env.utcOffset (resetBase sub) plan sub.endTime
  if 0 < sub.nextResetTime ∧ env.now < sub.nextResetTime then
    return sub
  else if normalizeResetPeriod plan.quotaResetPeriod = .never then
    return sub
  else do
    let caught ← orFail
      (catchUp env.utcOffset plan sub.endTime env.now (env.now.toNat + 1) (resetBase sub) next₀)
      .diverges
    if 0 < next₀ ∧ next₀ ≤ env.now then
      return { sub with
        amountUsed := 0
        quotaVersion := sub.quotaVersion + 1
        lastResetTime := caught.1
        nextResetTime := caught.2 }
    else if sub.nextResetTime = 0 ∧ 0 < caught.2 then
      return { sub with nextResetTime := caught.2, lastResetTime := caught.1 }
    else
      return sub

/-- What a reset may do to a subscription: adjust its reset times, and perhaps start a new quota
version with nothing used. -/
inductive Renewed (sub : UserSubscription) : UserSubscription → Prop
  | scheduled (lastResetTime nextResetTime : ℤ) :
      Renewed sub { sub with lastResetTime, nextResetTime }
  | renewed (lastResetTime nextResetTime : ℤ) : Renewed sub { sub with
        amountUsed := 0, quotaVersion := sub.quotaVersion + 1, lastResetTime, nextResetTime }

theorem maybeReset_renewed {env : Env} {sub : UserSubscription} {plan : SubscriptionPlan} :
    Yields (Renewed sub) (maybeResetUserSubscriptionWithPlan env sub plan) := by
  unfold maybeResetUserSubscriptionWithPlan
  dsimp only
  split
  · exact .pure (.scheduled _ _)
  · split
    · exact .pure (.scheduled _ _)
    · refine .bind fun caught => ?_
      split
      · exact .pure (.renewed _ _)
      · split
        · exact .pure (.scheduled _ _)
        · exact .pure (.scheduled _ _)

end LmmApi.Subscription
