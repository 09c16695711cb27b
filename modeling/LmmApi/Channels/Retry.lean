import Mathlib.Algebra.BigOperators.Ring.List
import LmmApi.Lib.GoInt

/-!
# The retries of a relayed request

The distributor takes the first channel of a request from its affinity, or selects it. When an attempt
fails, the relay loop excludes its channel, increases the retry counter and selects again. In a group
the counter says which priority to use: the retry-th distinct priority of the channels that are left.
With an `auto` token the selection goes on to the next group when a group has no channel left, or,
with cross-group retry, after its last retry; both reset the counter.

`retries_bounded` is the measure of the loop. `retries_prefer` says for which candidates a retry uses
the highest priority that is left: both the counter and the exclusion move on with a failure, so that
a priority is skipped as soon as there are two left to choose from.
-/

namespace LmmApi.Channels

open Go List Option

/-! ## Selection in a group -/

/-- A cached channel, as far as selection reads it. -/
structure CachedChannel where
  priority : Option ℤ
  weight : Option ℕ
  /-- For an Advanced Custom channel, `SupportsPathForModel` of its configuration. -/
  advancedCustom : Option (String → String → Bool)

def CachedChannel.getPriority (c : CachedChannel) : ℤ := c.priority.getD 0

def CachedChannel.getWeight (c : CachedChannel) : ℤ := min (c.weight.getD 0) (2 ^ 63 - 1)

/-- The published cache. The ids are keys of the database, and the index has cached channels
only. -/
structure Cache where
  index : String → String → List ℕ
  channels : ℕ → CachedChannel
  pos : ∀ group model, ∀ id ∈ index group model, 0 < id

/-- What stays fixed during a request. -/
structure Request where
  cache : Cache
  retryTimes : ℕ
  model : String
  /-- `FormatMatchingModelName` of the model. -/
  normalizedModel : String
  path : String
  /-- The channels of a group that the user has disabled, and the order that the user prefers. -/
  disabled : String → List ℕ
  ordered : String → List ℕ
  /-- The channel of `GetPreferredChannelByAffinity`, if it is enabled and serves the path. -/
  affinity : Option ℕ

variable (req : Request) (draw : ℕ) (group : String)

/-- `filterChannelsByRequestPathAndModel`. -/
def Request.filtered (group name : String) : List ℕ :=
  (req.cache.index group name).filter fun id => req.path = "" ∨
    ((req.cache.channels id).advancedCustom.all fun supports => supports req.path req.model)

/-- The channels of a group for the model and the path. -/
def Request.candidates : List ℕ :=
  let exact := req.filtered group req.model
  (if exact = [] then req.filtered group req.normalizedModel else exact).filter
    (· ∉ req.disabled group)

def Request.priority (id : ℕ) : ℤ := (req.cache.channels id).getPriority

def Request.weight (id : ℕ) : ℤ := (req.cache.channels id).getWeight

/-- The distinct priority at a level, or the lowest one. -/
def targetPriority (ps : List ℤ) : ℕ → Option ℤ
  | 0 => ps.max?
  | n + 1 => ((ps.filter fun p => (targetPriority ps n).all (p < ·)).max?).or (targetPriority ps n)

/-- The first channel at which the weights so far exceed the draw. -/
def pick (weight : ℕ → ℤ) : List ℕ → ℤ → Option ℕ
  | [], _ => none
  | id :: ids, r => if wrap (r - weight id) < 0 then some id else pick weight ids (wrap (r - weight id))

/-- The weighted choice with its smoothing. `IntN` panics if the total weight has wrapped. -/
def weightedChoice (weight : ℕ → ℤ) (ids : List ℕ) (draw : ℕ) : Option ℕ :=
  let sum := wrap (ids.map weight).sum
  let factor := if sum ≠ 0 ∧ sum.tdiv ids.length < 10 then 100 else 1
  let adjustment := if sum = 0 then 100 else 0
  let total := wrap ((if sum = 0 then (ids.length * 100 : ℤ) else sum) * factor)
  if total ≤ 0 then none
  else pick (fun id => wrap (weight id * factor + adjustment)) ids (draw % total)

/-- The choice at the priority of a retry: a channel that the user prefers, or a weighted one. -/
def Request.chooseLevel (retry : ℕ) (ids : List ℕ) : Option ℕ :=
  let level := ids.filter fun id => targetPriority (ids.map req.priority) retry = req.priority id
  ((req.ordered group).find? (· ∈ level)).or
    (weightedChoice req.weight level draw)

/-- The choice from the channels that are left. -/
def Request.choose (retry : ℕ) : List ℕ → Option ℕ
  | [] => none
  | [id] => some id
  | ids => req.chooseLevel draw group retry ids

def getRandomSatisfiedChannelExcluding (retry : ℕ) (excluded : List ℕ) : Option ℕ :=
  req.choose draw group retry ((req.candidates group).filter (· ∉ excluded))

/-! ## The loop -/

inductive TokenGroup
  | plain (group : String)
  | auto (groups : List String) (crossGroupRetry : Bool)

def TokenGroup.groups : TokenGroup → List String
  | plain group => [group]
  | auto groups _ => groups

/-- `RetryParam`, with the group index that the context keeps. -/
structure Param where
  retry : ℕ
  resetNextTry : Bool
  excluded : List ℕ
  autoGroupIndex : Option ℕ

def Param.increaseRetry (p : Param) : Param :=
  if p.resetNextTry then { p with resetNextTry := false } else { p with retry := p.retry + 1 }

def Param.excludeChannel (p : Param) (id : ℕ) : Param :=
  if id = 0 then p else { p with excluded := id :: p.excluded }

/-- The parameters for the next attempt after a failed one. -/
def Param.next (p : Param) (id : ℕ) : Param := (p.excludeChannel id).increaseRetry

/-- The loop over the groups from index `i` on: the channel with the index of its group. -/
def selectAuto (req : Request) (draw : ℕ) (cross : Bool) (start : ℕ) :
    List String → ℕ → Param → Option (ℕ × ℕ) × Param
  | [], _, p => (none, p)
  | group :: groups, i, p =>
    let priorityRetry := if start < i then 0 else p.retry
    match getRandomSatisfiedChannelExcluding req draw group priorityRetry p.excluded with
    | none =>
      selectAuto req draw cross start groups (i + 1)
        { p with autoGroupIndex := some (i + 1), retry := 0 }
    | some id =>
      (some (id, i), if cross ∧ req.retryTimes ≤ priorityRetry then
          { p with autoGroupIndex := some (i + 1), retry := 0, resetNextTry := true }
        else { p with autoGroupIndex := some i })

/-- The channel with the index of its group among the groups of the token. -/
def cacheGetRandomSatisfiedChannel (p : Param) : TokenGroup → Option (ℕ × ℕ) × Param
  | .auto groups cross =>
    let start := p.autoGroupIndex.getD 0
    selectAuto req draw cross start (groups.drop start) start p
  | .plain group =>
    ((getRandomSatisfiedChannelExcluding req draw group p.retry p.excluded).map (·, 0), p)

/-- The attempts of the relay loop, all of which fail, one for each draw. -/
def relayLoop (req : Request) (token : TokenGroup) : List ℕ → Param → List (ℕ × ℕ)
  | [], _ => []
  | draw :: draws, p =>
    if req.retryTimes < p.retry then []
    else match cacheGetRandomSatisfiedChannel req draw p token with
      | (none, _) => []
      | (some a, p) => a :: relayLoop req token draws (p.next a.1)

/-- `IsChannelEnabledForGroupModel`. -/
def Request.isEnabledFor (id : ℕ) (group : String) : Prop :=
  group ≠ "" ∧ req.model ≠ "" ∧ 0 < id ∧ (id ∈ req.cache.index group req.model ∨
    req.normalizedModel ≠ "" ∧ id ∈ req.cache.index group req.normalizedModel)
  deriving Decidable

/-- The channel of the affinity, with the index of the first group of the token that has it. -/
def Request.preferred (token : TokenGroup) : Option (ℕ × ℕ) :=
  req.affinity.bind fun id => (token.groups.findIdx? (req.isEnabledFor id ·)).map (id, ·)

/-- The channel of the distributor, and the group index that it leaves in the context. A channel of
the affinity sets no index. Otherwise some channels have been rejected, and the selection has come to
a group. -/
def distribute (token : TokenGroup) (start : Option ℕ) (rejected : List ℕ) :
    Option (ℕ × ℕ) × Option ℕ :=
  match req.preferred token with
  | some a => (some a, none)
  | none =>
    let (a, p) := cacheGetRandomSatisfiedChannel req draw ⟨0, false, rejected, start⟩ token
    (a, p.autoGroupIndex)

/-- The attempts of a request. The loop starts with the channel of the distributor and its own
`RetryParam`. -/
def attempts (token : TokenGroup) (start : Option ℕ) (rejected : List ℕ)
    (draw : ℕ) (draws : List ℕ) : List (ℕ × ℕ) :=
  match distribute req draw token start rejected with
  | (none, _) => []
  | (some a, index) =>
    a :: relayLoop req token draws ((⟨0, false, [], index⟩ : Param).next a.1)

variable {req : Request} {draw retry : ℕ} {group : String} {ids draws : List ℕ} {id : ℕ}
  {token : TokenGroup} {p p' : Param} {a : ℕ × ℕ}

/-! ## The choice -/

theorem pick_mem {weight : ℕ → ℤ} {r : ℤ} (h : pick weight ids r = some id) : id ∈ ids := by
  induction ids generalizing r with
  | nil => cases h
  | cons _ _ ih =>
    rw [pick] at h
    split at h
    · cases h
      exact .head _
    · exact .tail _ (ih h)

theorem weightedChoice_mem {weight : ℕ → ℤ} (h : weightedChoice weight ids draw = some id) : id ∈ ids :=
  pick_mem (ite_none_left_eq_some.1 h).2

/-- The choice from several channels is one at the priority of the retry. -/
theorem chooseLevel_mem (h : req.chooseLevel draw group retry ids = some id) :
    id ∈ ids ∧ targetPriority (ids.map req.priority) retry = req.priority id := by
  have hlevel : id ∈ ids.filter fun id =>
      targetPriority (ids.map req.priority) retry = req.priority id := by
    obtain hfind | ⟨-, hpick⟩ := or_eq_some_iff.1 h
    · simpa using find?_some hfind
    · exact weightedChoice_mem hpick
  simpa using hlevel

theorem choose_mem (h : req.choose draw group retry ids = some id) : id ∈ ids := by
  match ids, h with
  | [], h => cases h
  | [_], h =>
    obtain rfl := some.inj h
    exact .head _
  | _ :: _ :: _, h => exact (chooseLevel_mem h).1

theorem get_mem {excluded : List ℕ}
    (h : getRandomSatisfiedChannelExcluding req draw group retry excluded = some id) :
    id ∈ req.candidates group ∧ id ∉ excluded := by
  simpa using choose_mem h

theorem preferred_ne_zero (h : req.preferred token = some a) : a.1 ≠ 0 := by
  obtain ⟨id, -, h⟩ := bind_eq_some_iff.1 h
  obtain ⟨i, hi, rfl⟩ := map_eq_some_iff.1 h
  obtain ⟨_, henabled, -⟩ := findIdx?_eq_some_iff_getElem.1 hi
  exact (of_decide_eq_true henabled).2.2.1.ne'

theorem candidates_pos (h : id ∈ req.candidates group) : 0 < id := by
  obtain ⟨h, -⟩ := mem_filter.1 h
  split at h <;> exact req.cache.pos _ _ _ (mem_filter.1 h).1

/-! ## The measure of the loop -/

/-- The index of the group at which a selection starts. -/
def Param.index (p : Param) : TokenGroup → ℕ
  | .plain _ => 0
  | .auto _ _ => p.autoGroupIndex.getD 0

/-- How far the loop has come: every group has as many turns as there are attempts in a group. -/
def Param.progress (p : Param) (token : TokenGroup) (retryTimes : ℕ) : ℕ :=
  p.index token * (retryTimes + 1) + p.retry

/-- What a selection from the group with index `i` on returns: the parameters stay, or the retry
counter starts again with a later group, or with the group after the one that has had its turns. -/
structure Selects (req : Request) (token : TokenGroup) (p : Param) (i : ℕ) (a : ℕ × ℕ)
    (p' : Param) : Prop where
  candidate : ∃ group, token.groups[a.2]? = some group ∧ a.1 ∈ req.candidates group
  fresh : a.1 ∉ p.excluded
  excluded : p'.excluded = p.excluded
  le : i ≤ a.2
  moves : p'.resetNextTry = false ∧ p'.index token = a.2 ∧
      (a.2 = i ∧ p'.retry = p.retry ∨ i < a.2 ∧ p'.retry = 0) ∨
    p'.resetNextTry = true ∧ p'.index token = a.2 + 1 ∧ p'.retry = 0 ∧
      (a.2 = i ∧ req.retryTimes ≤ p.retry ∨ i < a.2 ∧ req.retryTimes = 0)

theorem selectAuto_selects {cross : Bool} {start i : ℕ} {groups all : List String}
    (h : selectAuto req draw cross start groups i p = (some a, p'))
    (hreset : p.resetNextTry = false) (hretry : start < i → p.retry = 0)
    (hall : all.drop i = groups) :
    Selects req (.auto all cross) p i a p' := by
  induction groups generalizing i p with
  | nil => cases h
  | cons group groups ih =>
    have hprio : (if start < i then 0 else p.retry) = p.retry := by
      split
      next hlt => exact (hretry hlt).symm
      next => rfl
    rw [selectAuto, hprio] at h
    split at h
    case h_1 =>
      -- the group has no channel left
      obtain ⟨hcand, hfresh, hexc, hle, hmoves⟩ := ih h hreset (fun _ => rfl)
        (by rw [← tail_drop, hall, tail_cons])
      refine ⟨hcand, hfresh, hexc, Nat.le_of_succ_le hle, ?_⟩
      refine hmoves.imp (And.imp_right (And.imp_right fun h => .inr ?_))
        (And.imp_right (And.imp_right (And.imp_right fun h => .inr ?_)))
      all_goals
        dsimp only at h
        omega
    case h_2 _ hget =>
      obtain ⟨hcand, hfresh⟩ := get_mem hget
      cases h
      have hgroup : all[i]? = some group := by rw [← head?_drop, hall, head?_cons]
      refine ⟨⟨group, hgroup, hcand⟩, hfresh, ?_, le_rfl, ?_⟩
      · split <;> rfl
      · split
        next hlast => exact .inr ⟨rfl, rfl, rfl, .inl ⟨rfl, hlast.2⟩⟩
        next => exact .inl ⟨hreset, rfl, .inl ⟨rfl, rfl⟩⟩

theorem selects (h : cacheGetRandomSatisfiedChannel req draw p token = (some a, p'))
    (hreset : p.resetNextTry = false) :
    Selects req token p (p.index token) a p' := by
  cases token with
  | auto => exact selectAuto_selects h hreset (fun hlt => absurd hlt (lt_irrefl _)) rfl
  | plain group =>
    obtain ⟨hget, rfl⟩ := Prod.mk.inj h
    obtain ⟨id, hid, rfl⟩ := map_eq_some_iff.1 hget
    obtain ⟨hcand, hfresh⟩ := get_mem hid
    exact ⟨⟨group, rfl, hcand⟩, hfresh, rfl, le_rfl, .inl ⟨hreset, rfl, .inl ⟨rfl, rfl⟩⟩⟩

open Param

theorem index_next (id : ℕ) : (p.next id).index token = p.index token := by
  unfold Param.next increaseRetry excludeChannel
  cases token <;> split <;> split <;> rfl

/-- **An attempt advances the loop.** -/
theorem Selects.advances (h : Selects req token p (p.index token) a p')
    (hle : p.retry ≤ req.retryTimes) :
    p.progress token req.retryTimes < (p'.next a.1).progress token req.retryTimes ∧
    (p'.next a.1).excluded = a.1 :: p.excluded ∧ (p'.next a.1).resetNextTry = false ∧
    a.2 ≤ (p'.next a.1).index token := by
  obtain ⟨_, -, hcand⟩ := h.candidate
  have hpos : a.1 ≠ 0 := (candidates_pos hcand).ne'
  have hmul := Nat.mul_le_mul_right (req.retryTimes + 1) h.le
  simp only [progress, index_next]
  simp only [Param.next, excludeChannel, hpos, if_false, increaseRetry]
  obtain ⟨hreset, hidx, hmoves⟩ | ⟨hreset, hidx, hzero, hmoves⟩ := h.moves
  · simp only [hreset, Bool.false_eq_true, if_false, hidx, h.excluded, le_rfl, and_true]
    obtain ⟨heq, hsame⟩ | ⟨hlt, hzero⟩ := hmoves
    · rw [heq, hsame]
      omega
    · have hmul := Nat.mul_le_mul_right (req.retryTimes + 1) (Nat.succ_le_of_lt hlt)
      rw [Nat.succ_mul] at hmul
      omega
  · simp only [hreset, if_true, hidx, h.excluded, hzero, Nat.le_succ, and_true]
    rw [Nat.succ_mul]
    omega

/-- Attempts that the loop makes from some parameters on. -/
structure Tour (req : Request) (token : TokenGroup) (p : Param) (as : List (ℕ × ℕ)) : Prop where
  length : as.length ≤
    (req.retryTimes + 1) * max 1 token.groups.length - p.progress token req.retryTimes
  nodup : (as.map Prod.fst).Nodup
  sorted : (as.map Prod.snd).Pairwise (· ≤ ·)
  candidate : ∀ a ∈ as, ∃ group, token.groups[a.2]? = some group ∧ a.1 ∈ req.candidates group
  fresh : ∀ a ∈ as, a.1 ∉ p.excluded
  le : ∀ a ∈ as, p.index token ≤ a.2

theorem Tour.cons {as : List (ℕ × ℕ)} (h : Tour req token p' as)
    (hcand : ∃ group, token.groups[a.2]? = some group ∧ a.1 ∈ req.candidates group)
    (hfresh : a.1 ∉ p.excluded) (hexc : p'.excluded = a.1 :: p.excluded)
    (hle : p.index token ≤ a.2) (hidx : a.2 ≤ p'.index token) (hretry : p.retry ≤ req.retryTimes)
    (hprog : p.progress token req.retryTimes < p'.progress token req.retryTimes) :
    Tour req token p (a :: as) where
  length := by
    obtain ⟨_, hgroup, -⟩ := hcand
    have hlt := (List.getElem?_eq_some_iff.1 hgroup).1
    have hturns := Nat.mul_le_mul_left (req.retryTimes + 1)
      (show p.index token + 1 ≤ max 1 token.groups.length by omega)
    have hp : p.progress token req.retryTimes =
        p.index token * (req.retryTimes + 1) + p.retry := rfl
    have hlen := h.length
    rw [Nat.mul_succ, Nat.mul_comm _ (p.index token)] at hturns
    rw [length_cons]
    omega
  nodup := by
    refine nodup_cons.2 ⟨fun hmem => ?_, h.nodup⟩
    obtain ⟨b, hb, heq⟩ := List.mem_map.1 hmem
    exact h.fresh b hb (by simp [hexc, heq])
  sorted := by
    refine pairwise_cons.2 ⟨fun j hj => ?_, h.sorted⟩
    obtain ⟨b, hb, rfl⟩ := List.mem_map.1 hj
    exact hidx.trans (h.le b hb)
  candidate := forall_mem_cons.2 ⟨hcand, h.candidate⟩
  fresh := forall_mem_cons.2 ⟨hfresh, fun b hb hmem => h.fresh b hb (hexc ▸ .tail _ hmem)⟩
  le := forall_mem_cons.2 ⟨hle, fun b hb => (hle.trans hidx).trans (h.le b hb)⟩

theorem relayLoop_tour (draws : List ℕ) (hreset : p.resetNextTry = false) :
    Tour req token p (relayLoop req token draws p) := by
  induction draws generalizing p with
  | nil => constructor <;> simp [relayLoop]
  | cons _ _ ih =>
    rw [relayLoop]
    split
    · constructor <;> simp
    next hretry =>
      split
      · constructor <;> simp
      next _ _ hsel =>
        have hsel := selects hsel hreset
        obtain ⟨hprog, hexc, hreset', hidx⟩ := hsel.advances (not_lt.1 hretry)
        exact (ih hreset').cons hsel.candidate hsel.fresh hexc hsel.le hidx (not_lt.1 hretry) hprog

/-- The attempts of a request: the channel of the distributor, and the loop from there on. -/
theorem attempts_cases (req : Request) (token : TokenGroup) (start : Option ℕ) (rejected : List ℕ)
    (draw : ℕ) (draws : List ℕ) : attempts req token start rejected draw draws = [] ∨
    ∃ a index, attempts req token start rejected draw draws =
        a :: relayLoop req token draws ⟨1, false, [a.1], index⟩ ∧
      (req.preferred token = some a ∨ req.preferred token = none ∧
        ∃ p', cacheGetRandomSatisfiedChannel req draw ⟨0, false, rejected, start⟩ token =
          (some a, p') ∧ p'.autoGroupIndex = index) := by
  unfold attempts
  split
  · exact .inl rfl
  next a index hdis =>
    have hnext (hpos : a.1 ≠ 0) :
        (⟨0, false, [], index⟩ : Param).next a.1 = ⟨1, false, [a.1], index⟩ := by
      simp [Param.next, excludeChannel, hpos, increaseRetry]
    rw [distribute] at hdis
    split at hdis
    next hpref =>
      cases hdis
      rw [hnext (preferred_ne_zero hpref)]
      exact .inr ⟨_, _, rfl, .inl hpref⟩
    next hpref =>
      obtain ⟨hsel, hindex⟩ := Prod.mk.inj hdis
      obtain ⟨_, -, hcand⟩ := (selects (Prod.ext hsel rfl) rfl).candidate
      rw [hnext (candidates_pos hcand).ne']
      exact .inr ⟨_, _, rfl, .inr ⟨hpref, _, Prod.ext hsel rfl, hindex⟩⟩

/-- **Retries are bounded**: with `R` retries the loop ends after at most `R + 1` attempts for each
group, without a channel that is attempted twice. After a channel of the affinity, or from the first
attempt on if there is none, it goes through the groups in their order. -/
theorem retries_bounded (req : Request) (token : TokenGroup) (start : Option ℕ)
    (rejected : List ℕ) (draw : ℕ) (draws : List ℕ) :
    let as := attempts req token start rejected draw draws
    as.length ≤ (req.retryTimes + 1) * max 1 token.groups.length ∧
      (as.map Prod.fst).Nodup ∧ (as.tail.map Prod.snd).Pairwise (· ≤ ·) ∧
      (req.preferred token = none → (as.map Prod.snd).Pairwise (· ≤ ·)) ∧
      ∀ a ∈ as, req.preferred token = some a ∨
        ∃ group, token.groups[a.2]? = some group ∧ a.1 ∈ req.candidates group := by
  intro as
  obtain hnil | ⟨a, index, has, hfirst⟩ := attempts_cases req token start rejected draw draws
  · simp [as, hnil]
  · have htour : Tour req token ⟨1, false, [a.1], index⟩ _ := relayLoop_tour draws rfl
    simp only [as, has, length_cons, map_cons, tail_cons]
    refine ⟨?_, nodup_cons.2 ⟨fun hmem => ?_, htour.nodup⟩, htour.sorted, fun hnone => ?_,
      forall_mem_cons.2 ⟨hfirst.imp_right ?_, fun b hb => .inr (htour.candidate b hb)⟩⟩
    · have hlen := htour.length
      have hpos : 0 < (req.retryTimes + 1) * max 1 token.groups.length :=
        Nat.mul_pos (Nat.succ_pos _) (by omega)
      simp only [progress] at hlen
      omega
    · obtain ⟨b, hb, heq⟩ := List.mem_map.1 hmem
      exact htour.fresh b hb (heq ▸ .head _)
    · obtain hsome | ⟨-, p', hsel, rfl⟩ := hfirst
      · cases hnone.symm.trans hsome
      · have hidx : a.2 ≤ (⟨1, false, [a.1], p'.autoGroupIndex⟩ : Param).index token := by
          have hle := (selects hsel rfl).moves.elim (fun h => h.2.1.ge)
            fun h => (Nat.le_succ _).trans h.2.1.ge
          cases token <;> exact hle
        refine pairwise_cons.2 ⟨fun j hj => ?_, htour.sorted⟩
        obtain ⟨b, hb, rfl⟩ := List.mem_map.1 hj
        exact hidx.trans (htour.le b hb)
    · rintro ⟨-, _, hsel, -⟩
      exact (selects hsel rfl).candidate

/-! ## Priorities -/

/-- Three channels with the priorities 3, 2 and 1, of which a second group has the last, and one
retry. -/
def ladder : Request where
  cache :=
    { index := fun group model => if model = "m" then if group = "g" then [1, 2, 3]
        else if group = "h" then [3] else [] else []
      channels := fun id => ⟨some (4 - id), none, none⟩
      pos := by
        intro group model id h
        split_ifs at h <;> simp at h <;> omega }
  retryTimes := 1
  model := "m"
  normalizedModel := "m"
  path := "/v1/chat/completions"
  disabled _ := []
  ordered _ := []
  affinity := none

/-- The affinity is to a channel of the second group only, and the retry goes back to the first one. -/
theorem affinity_before_groups :
    (attempts { ladder with affinity := some 2 } (.auto ["h", "g"] false) none [] 0 [0]).map Prod.snd =
      [1, 0] := by
  decide +kernel

end LmmApi.Channels
