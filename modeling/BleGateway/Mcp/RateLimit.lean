import BleGateway.Lib.Machine
import BleGateway.Mcp.Auth

/-! # The rate limit over a history of requests

`rate_limit_allow` refills the bucket by whole seconds and counts the next ones from the request
that did so: what has passed of the second before that is dropped. Beside it runs a bucket that the
same requests are taken from and that loses nothing, with its level in millionths of a token. `long`
and `int` have 32 bits.
-/

namespace BleGateway.Mcp

/-! ## The widths of the types -/

def RATE_INT_MAX : Int := 2147483647

/-- `mcp_auth_reset_rate_limit`. -/
def resetRateLimit (now : Int) : RateLimit := { lastRefillUs := now }

theorem wrap32_le {v : Int} (h : -RATE_INT_MAX - 1 ≤ v) : wrap32 v ≤ v := by
  unfold RATE_INT_MAX at h
  unfold wrap32
  rw [Int.bmod_def]
  split <;> omega

theorem le_wrap32 (v : Int) : -RATE_INT_MAX - 1 ≤ wrap32 v := by
  unfold RATE_INT_MAX wrap32
  rw [Int.bmod_def]
  split <;> omega

theorem wrap32_eq {v : Int} (hlow : -RATE_INT_MAX - 1 ≤ v) (hhigh : v ≤ RATE_INT_MAX) :
    wrap32 v = v := by
  unfold RATE_INT_MAX at hlow hhigh
  unfold wrap32
  rw [Int.bmod_def]
  split <;> omega

/-- The seconds and the tokens wrap around only together. -/
theorem wrap32_refill (cfg : Config) (tokens elapsed : Int) :
    wrap32 (tokens + refillTokens cfg elapsed) =
      wrap32 (tokens + elapsed.tdiv MCP_RATE_WINDOW_US * cfg.rateLimitRps) := by
  unfold refillTokens wrap32
  rw [Int.bmod_mul_bmod, Int.add_bmod_bmod]

/-! ## A history of requests -/

/-- The limiter and what has happened so far. -/
structure Meter where
  limiter : RateLimit
  /-- The time of the last request. -/
  now : Int
  /-- The level of the bucket that loses nothing. -/
  level : Int
  /-- What refills have dropped since one has filled the bucket. -/
  dropped : Int := 0
  admitted : List Int := []
  /-- The level of the bucket that loses nothing, at each refusal. -/
  refused : List Int := []

def LEVEL_MAX : Int := MCP_RATE_CAPACITY * MCP_RATE_WINDOW_US

namespace Meter

variable (cfg : Config) (s : Meter) (now : Int)

def elapsed : Int := now - s.limiter.lastRefillUs

/-- The level that loses nothing at the time of a request. -/
def refilled : Int := min (s.level + cfg.rateLimitRps * (now - s.now)) LEVEL_MAX

/-- What is dropped by then. -/
def droppedBy : Int :=
  if MCP_RATE_WINDOW_US ≤ s.elapsed now then
    if MCP_RATE_CAPACITY ≤
        s.limiter.tokens + s.elapsed now / MCP_RATE_WINDOW_US * cfg.rateLimitRps then 0
    else s.dropped + cfg.rateLimitRps * (s.elapsed now % MCP_RATE_WINDOW_US)
  else s.dropped

def step : Option Meter :=
  if s.now ≤ now then
    let allowed := rateLimitAllow cfg now s.limiter
    let level := s.refilled cfg now
    some
      { limiter := allowed.2
        now := now
        level := if allowed.1 then level - MCP_RATE_WINDOW_US else level
        dropped := s.droppedBy cfg now
        admitted := if allowed.1 then s.admitted ++ [now] else s.admitted
        refused := if allowed.1 then s.refused else s.refused ++ [level] }
  else none

end Meter

/-- The limiter after `mcp_auth_reset_rate_limit`, under requests at times that do not decrease. -/
def meterMachine (cfg : Config) : Machine Meter Int where
  init s := s = { limiter := resetRateLimit s.now, now := s.now, level := LEVEL_MAX }
  step := Meter.step cfg

/-- The requests admitted between two times. -/
def Meter.admittedWithin (s : Meter) (a b : Int) : Nat :=
  s.admitted.countP fun t => decide (a ≤ t ∧ t ≤ b)

/-- **A token bucket.** The requests that are admitted in any interval are bounded by the capacity
and the rate, and a request is refused only if the bucket that loses nothing is without a whole
token. -/
structure Meter.Sound (cfg : Config) (s : Meter) : Prop where
  bounded : ∀ a t, 0 ≤ t → (s.admittedWithin a (a + t) : Int) ≤
    MCP_RATE_CAPACITY + cfg.rateLimitRps * (t / MCP_RATE_WINDOW_US + 1)
  empty : ∀ level ∈ s.refused, level < MCP_RATE_WINDOW_US

/-- The tokens of the seconds since the last refill fit into an `int`, and a request that finds the
bucket empty before the next one comes while less than a token has been dropped or not refilled. -/
def Meter.Lossless (cfg : Config) (s : Meter) (now : Int) : Prop :=
  s.elapsed now / MCP_RATE_WINDOW_US * cfg.rateLimitRps + MCP_RATE_CAPACITY ≤ RATE_INT_MAX ∧
    (s.elapsed now < MCP_RATE_WINDOW_US → s.limiter.tokens ≤ 0 →
      s.dropped + cfg.rateLimitRps * s.elapsed now < MCP_RATE_WINDOW_US)

instance (cfg : Config) (s : Meter) (now : Int) : Decidable (s.Lossless cfg now) := by
  unfold Meter.Lossless
  infer_instance

/-! ## One request -/

/-- The tokens and the time of the last refill at the decision on a request. -/
structure Decided (cfg : Config) (now : Int) (s : RateLimit) (tokens last : Int) : Prop where
  allow : rateLimitAllow cfg now s =
    (decide (0 < tokens),
      { tokens := if 0 < tokens then tokens - 1 else tokens, lastRefillUs := last })
  refill : (MCP_RATE_WINDOW_US ≤ now - s.lastRefillUs ∧ last = now ∧
      tokens = min (wrap32 (s.tokens + (now - s.lastRefillUs) / MCP_RATE_WINDOW_US *
        cfg.rateLimitRps)) MCP_RATE_CAPACITY) ∨
    (now - s.lastRefillUs < MCP_RATE_WINDOW_US ∧ last = s.lastRefillUs ∧ tokens = s.tokens)

theorem exists_decided (cfg : Config) (now : Int) (s : RateLimit) :
    ∃ tokens last, Decided cfg now s tokens last := by
  by_cases h : MCP_RATE_WINDOW_US ≤ now - s.lastRefillUs
  · have hpos : 0 ≤ now - s.lastRefillUs := by
      unfold MCP_RATE_WINDOW_US at h
      omega
    refine ⟨_, _, ?_, .inl ⟨h, rfl, rfl⟩⟩
    unfold rateLimitAllow
    simp only [if_pos h, wrap32_refill, Int.tdiv_eq_ediv_of_nonneg hpos]
    split
    · rename_i hempty
      rw [if_neg (by omega), decide_eq_false (by omega)]
    · rename_i hfull
      rw [if_pos (by omega), decide_eq_true (by omega)]
  · refine ⟨_, _, ?_, .inr ⟨Int.not_le.mp h, rfl, rfl⟩⟩
    unfold rateLimitAllow
    simp only [if_neg h]
    split
    · rename_i hempty
      rw [if_neg (by omega), decide_eq_false (by omega)]
    · rename_i hfull
      rw [if_pos (by omega), decide_eq_true (by omega)]

/-- The whole windows of two stretches are no more than those of both together. -/
theorem windows_add (a b : Int) : a / MCP_RATE_WINDOW_US + b / MCP_RATE_WINDOW_US ≤
    (a + b) / MCP_RATE_WINDOW_US := by
  unfold MCP_RATE_WINDOW_US
  omega

/-! ## How many requests are admitted -/

/-- The requests admitted from a time on. -/
def Meter.since (s : Meter) (a : Int) : Nat := s.admitted.countP fun t => decide (a ≤ t)

/-- The requests admitted from a time on and the tokens that are left come from a full bucket and
from the refills since a time that lies less than a window before. -/
structure Meter.Counted (cfg : Config) (s : Meter) : Prop where
  last_le : s.limiter.lastRefillUs ≤ s.now
  capacity : s.limiter.tokens ≤ MCP_RATE_CAPACITY
  low : -RATE_INT_MAX - 1 ≤ s.limiter.tokens
  past : ∀ t ∈ s.admitted, t ≤ s.now
  counted : ∀ a, s.since a = 0 ∨ ∃ o, a - MCP_RATE_WINDOW_US < o ∧ o ≤ s.limiter.lastRefillUs ∧
    (s.since a : Int) + s.limiter.tokens ≤ MCP_RATE_CAPACITY +
      cfg.rateLimitRps * ((s.limiter.lastRefillUs - o) / MCP_RATE_WINDOW_US)

variable {cfg : Config} {s s' : Meter} {now : Int}

/-- What a request does to the meter, by the decision on it. -/
theorem Meter.step_eq (h : s.step cfg now = some s') : s.now ≤ now ∧
    s' = { limiter := (rateLimitAllow cfg now s.limiter).2
           now := now
           level := if (rateLimitAllow cfg now s.limiter).1 then
               s.refilled cfg now - MCP_RATE_WINDOW_US else s.refilled cfg now
           dropped := s.droppedBy cfg now
           admitted := if (rateLimitAllow cfg now s.limiter).1 then s.admitted ++ [now]
             else s.admitted
           refused := if (rateLimitAllow cfg now s.limiter).1 then s.refused
             else s.refused ++ [s.refilled cfg now] } := by
  unfold Meter.step at h
  split at h
  · rename_i hnow
    exact ⟨hnow, (Option.some.inj h).symm⟩
  · cases h

theorem since_append (l : List Int) (now a : Int) :
    (l ++ [now]).countP (fun t => decide (a ≤ t)) =
      l.countP (fun t => decide (a ≤ t)) + if a ≤ now then 1 else 0 := by
  rw [List.countP_append, List.countP_singleton]
  simp

/-- The tokens at a decision: at most the capacity, and at most those of the refill more. -/
theorem Decided.tokens_le {tokens last : Int} (h : Decided cfg now s.limiter tokens last)
    (hr : 0 ≤ cfg.rateLimitRps) (hc : s.Counted cfg) (hnow : s.now ≤ now) :
    tokens ≤ MCP_RATE_CAPACITY ∧ -RATE_INT_MAX - 1 ≤ tokens ∧ s.limiter.lastRefillUs ≤ last ∧
      last ≤ now ∧ now - MCP_RATE_WINDOW_US < last ∧
      tokens ≤ s.limiter.tokens + cfg.rateLimitRps *
        ((last - s.limiter.lastRefillUs) / MCP_RATE_WINDOW_US) := by
  have hlast := hc.last_le
  have hwindow : MCP_RATE_WINDOW_US = 1000000 := rfl
  rcases h.refill with ⟨helapsed, rfl, rfl⟩ | ⟨helapsed, rfl, rfl⟩
  · have hseconds : 0 ≤ (last - s.limiter.lastRefillUs) / MCP_RATE_WINDOW_US := by
      rw [hwindow]
      omega
    have hgain := Int.mul_nonneg hr hseconds
    have hlow := hc.low
    have hwrap := wrap32_le (v := s.limiter.tokens +
      (last - s.limiter.lastRefillUs) / MCP_RATE_WINDOW_US * cfg.rateLimitRps)
      (by rw [Int.mul_comm _ cfg.rateLimitRps]; omega)
    have hge := le_wrap32 (s.limiter.tokens +
      (last - s.limiter.lastRefillUs) / MCP_RATE_WINDOW_US * cfg.rateLimitRps)
    rw [Int.mul_comm _ cfg.rateLimitRps] at hwrap hge ⊢
    have hcap : MCP_RATE_CAPACITY = 10 := rfl
    have hmax : RATE_INT_MAX = 2147483647 := rfl
    omega
  · have hcap := hc.capacity
    have hlow := hc.low
    have hzero : (s.limiter.lastRefillUs - s.limiter.lastRefillUs) / MCP_RATE_WINDOW_US = 0 := by
      rw [Int.sub_self, Int.zero_ediv]
    rw [hzero, Int.mul_zero]
    omega

theorem Meter.Counted.step (hr : 0 ≤ cfg.rateLimitRps) (hc : s.Counted cfg)
    (h : s.step cfg now = some s') : s'.Counted cfg := by
  obtain ⟨hnow, rfl⟩ := Meter.step_eq h
  obtain ⟨tokens, last, hd⟩ := exists_decided cfg now s.limiter
  obtain ⟨hcap, hlow, hlast, hle, hwindow, hgain⟩ := hd.tokens_le hr hc hnow
  have hw : MCP_RATE_WINDOW_US = 1000000 := rfl
  rw [hd.allow]
  dsimp only
  refine ⟨hle, ?_, ?_, ?_, fun a => ?_⟩
  · show (if 0 < tokens then tokens - 1 else tokens) ≤ MCP_RATE_CAPACITY
    split <;> omega
  · show -RATE_INT_MAX - 1 ≤ if 0 < tokens then tokens - 1 else tokens
    have hmax : RATE_INT_MAX = 2147483647 := rfl
    split <;> omega
  · intro t ht
    simp only [decide_eq_true_eq] at ht
    split at ht
    · rcases List.mem_append.mp ht with ht | ht
      · exact (hc.past t ht).trans hnow
      · rw [List.mem_singleton.mp ht]
    · exact (hc.past t ht).trans hnow
  · unfold Meter.since
    simp only [decide_eq_true_eq]
    have hgrown (o : Int) := Int.mul_le_mul_of_nonneg_left
      (windows_add (s.limiter.lastRefillUs - o) (last - s.limiter.lastRefillUs)) hr
    simp only [show ∀ o, s.limiter.lastRefillUs - o + (last - s.limiter.lastRefillUs) = last - o by
      omega, Int.mul_add] at hgrown
    by_cases hallow : 0 < tokens
    · rw [if_pos hallow, if_pos hallow, since_append]
      show _ + (if a ≤ now then 1 else 0) = 0 ∨ _
      rcases hc.counted a with hnone | ⟨o, ho, hlast', hsum⟩
      · rw [show s.admitted.countP (fun t => decide (a ≤ t)) = 0 from hnone]
        by_cases ha : a ≤ now
        · -- the first admitted request counts from the last refill
          right
          refine ⟨last, by omega, Int.le_refl _, ?_⟩
          rw [if_pos ha, Int.sub_self, Int.zero_ediv, Int.mul_zero]
          push_cast
          omega
        · left
          rw [if_neg ha]
      · right
        refine ⟨o, ho, hlast'.trans hlast, ?_⟩
        have hmul := hgrown o
        unfold Meter.since at hsum
        push_cast
        split <;> omega
    · rw [if_neg hallow, if_neg hallow]
      rcases hc.counted a with hnone | ⟨o, ho, hlast', hsum⟩
      · exact .inl hnone
      · right
        refine ⟨o, ho, hlast'.trans hlast, ?_⟩
        have hmul := hgrown o
        unfold Meter.since at hsum
        omega

/-- **The bound on what is admitted.** No condition on the times is needed for it. -/
theorem Meter.Counted.bounded_step (hr : 0 ≤ cfg.rateLimitRps) (hc : s.Counted cfg)
    (hb : ∀ a t, 0 ≤ t → (s.admittedWithin a (a + t) : Int) ≤
      MCP_RATE_CAPACITY + cfg.rateLimitRps * (t / MCP_RATE_WINDOW_US + 1))
    (h : s.step cfg now = some s') (a t : Int) (ht : 0 ≤ t) :
    (s'.admittedWithin a (a + t) : Int) ≤
      MCP_RATE_CAPACITY + cfg.rateLimitRps * (t / MCP_RATE_WINDOW_US + 1) := by
  have hc' := hc.step hr h
  obtain ⟨hnow, hs'⟩ := Meter.step_eq h
  obtain ⟨tokens, last, hd⟩ := exists_decided cfg now s.limiter
  have hold := hb a t ht
  rw [hd.allow] at hs'
  by_cases hnew : 0 < tokens ∧ now ≤ a + t
  · -- every admitted request from `a` on lies in the interval
    have hadmitted : s'.admitted = s.admitted ++ [now] := by
      rw [hs']
      simp [hnew.1]
    have hsame : s'.admittedWithin a (a + t) = s'.since a := by
      refine List.countP_congr fun u hu => ?_
      have hu' := hc'.past u hu
      have hnow' : s'.now = now := by rw [hs']
      simp only [decide_eq_true_eq]
      omega
    have htokens : 0 ≤ s'.limiter.tokens := by
      rw [hs']
      simp only [if_pos hnew.1]
      omega
    have hw : MCP_RATE_WINDOW_US = 1000000 := rfl
    have hcap : MCP_RATE_CAPACITY = 10 := rfl
    have hpos : 0 ≤ t / MCP_RATE_WINDOW_US + 1 := by
      rw [hw]
      omega
    have hgain := Int.mul_nonneg hr hpos
    rw [hsame]
    rcases hc'.counted a with hnone | ⟨o, ho, hlast, hsum⟩
    · rw [hnone, hcap]
      push_cast
      omega
    · have hle := hc'.last_le
      have hnow' : s'.now = now := by rw [hs']
      have hseconds : (s'.limiter.lastRefillUs - o) / MCP_RATE_WINDOW_US ≤
          t / MCP_RATE_WINDOW_US + 1 := by
        rw [hw] at ho ⊢
        omega
      have hmul := Int.mul_le_mul_of_nonneg_left hseconds hr
      omega
  · have hsame : s'.admittedWithin a (a + t) = s.admittedWithin a (a + t) := by
      unfold Meter.admittedWithin
      rw [hs']
      by_cases hallow : 0 < tokens
      · have hout : ¬now ≤ a + t := fun hin => hnew ⟨hallow, hin⟩
        simp [hallow, hout]
      · simp [hallow]
    rw [hsame]
    exact hold

/-! ## When a refusal is justified -/

/-- The bucket that loses nothing holds at most the tokens, what was dropped and what has come since
the last refill. -/
structure Meter.Covered (cfg : Config) (s : Meter) : Prop where
  tokens : 0 ≤ s.limiter.tokens
  dropped : 0 ≤ s.dropped
  level : s.level ≤ s.limiter.tokens * MCP_RATE_WINDOW_US + s.dropped +
    cfg.rateLimitRps * (s.now - s.limiter.lastRefillUs)

/-- At a decision the same holds of the tokens that it finds. -/
theorem Meter.Covered.decided {tokens last : Int} (hr : 0 ≤ cfg.rateLimitRps) (h : s.Covered cfg)
    (hfit : s.elapsed now / MCP_RATE_WINDOW_US * cfg.rateLimitRps + MCP_RATE_CAPACITY ≤
      RATE_INT_MAX)
    (hcap : s.limiter.tokens ≤ MCP_RATE_CAPACITY)
    (hd : Decided cfg now s.limiter tokens last) :
    0 ≤ tokens ∧ 0 ≤ s.droppedBy cfg now ∧
      s.refilled cfg now ≤ tokens * MCP_RATE_WINDOW_US + s.droppedBy cfg now +
        cfg.rateLimitRps * (now - last) := by
  have htokens := h.tokens
  have hdropped := h.dropped
  have hlevel := h.level
  have hw : MCP_RATE_WINDOW_US = 1000000 := rfl
  have hc : MCP_RATE_CAPACITY = 10 := rfl
  have hlevelmax : LEVEL_MAX = 10000000 := rfl
  have hsplit : cfg.rateLimitRps * (s.now - s.limiter.lastRefillUs) +
      cfg.rateLimitRps * (now - s.now) = cfg.rateLimitRps * s.elapsed now := by
    rw [← Int.mul_add, Meter.elapsed]
    congr 1
    omega
  rcases hd.refill with ⟨helapsed, hlast, heq⟩ | ⟨helapsed, hlast, heq⟩
  · have helapsed' : MCP_RATE_WINDOW_US ≤ s.elapsed now := helapsed
    have hseconds : 0 ≤ s.elapsed now / MCP_RATE_WINDOW_US := by
      rw [hw] at helapsed' ⊢
      omega
    have hgain := Int.mul_nonneg hseconds hr
    have hrest := Int.mul_nonneg hr (Int.emod_nonneg (s.elapsed now)
      (show MCP_RATE_WINDOW_US ≠ 0 by decide))
    have hmax : RATE_INT_MAX = 2147483647 := rfl
    have htokens' : tokens = min (s.limiter.tokens +
        s.elapsed now / MCP_RATE_WINDOW_US * cfg.rateLimitRps) MCP_RATE_CAPACITY := by
      rw [heq]
      congr 1
      exact wrap32_eq (by unfold Meter.elapsed at hgain; omega)
        (by unfold Meter.elapsed at hfit; omega)
    -- the elapsed time is the whole seconds and what is dropped of the next one
    have hwhole : cfg.rateLimitRps * s.elapsed now =
        s.elapsed now / MCP_RATE_WINDOW_US * cfg.rateLimitRps * MCP_RATE_WINDOW_US +
          cfg.rateLimitRps * (s.elapsed now % MCP_RATE_WINDOW_US) := by
      conv_lhs => rw [← Int.mul_ediv_add_emod (s.elapsed now) MCP_RATE_WINDOW_US]
      ring
    have hsum : s.level + cfg.rateLimitRps * (now - s.now) ≤
        (s.limiter.tokens + s.elapsed now / MCP_RATE_WINDOW_US * cfg.rateLimitRps) *
            MCP_RATE_WINDOW_US +
          (s.dropped + cfg.rateLimitRps * (s.elapsed now % MCP_RATE_WINDOW_US)) := by
      rw [Int.add_mul]
      omega
    rw [hlast, Int.sub_self, Int.mul_zero, htokens']
    unfold Meter.refilled Meter.droppedBy
    rw [if_pos helapsed']
    generalize s.elapsed now / MCP_RATE_WINDOW_US * cfg.rateLimitRps = gain at hsum hgain ⊢
    generalize cfg.rateLimitRps * (s.elapsed now % MCP_RATE_WINDOW_US) = rest at hsum hrest ⊢
    generalize cfg.rateLimitRps * (now - s.now) = later at hsum ⊢
    rw [hw] at hsum ⊢
    rw [hc, hlevelmax]
    split <;> omega
  · have helapsed' : ¬MCP_RATE_WINDOW_US ≤ s.elapsed now := Int.not_le.mpr helapsed
    rw [hlast, heq]
    unfold Meter.refilled Meter.droppedBy
    rw [if_neg helapsed']
    unfold Meter.elapsed at hsplit
    omega

theorem Meter.Covered.step (hr : 1 ≤ cfg.rateLimitRps) (hc : s.Counted cfg) (h : s.Covered cfg)
    (hok : s.Lossless cfg now) (hstep : s.step cfg now = some s') :
    s'.Covered cfg ∧ ((∀ level ∈ s.refused, level < MCP_RATE_WINDOW_US) →
      ∀ level ∈ s'.refused, level < MCP_RATE_WINDOW_US) := by
  obtain ⟨hnow, rfl⟩ := Meter.step_eq hstep
  obtain ⟨tokens, last, hd⟩ := exists_decided cfg now s.limiter
  obtain ⟨htokens, hdropped, hlevel⟩ := h.decided (by omega) hok.1 hc.capacity hd
  have hw : MCP_RATE_WINDOW_US = 1000000 := rfl
  rw [hd.allow]
  by_cases hallow : 0 < tokens
  · simp only [hallow, decide_true, if_true]
    refine ⟨⟨?_, hdropped, ?_⟩, fun hall => hall⟩
    · show 0 ≤ tokens - 1
      omega
    · show s.refilled cfg now - MCP_RATE_WINDOW_US ≤ (tokens - 1) * MCP_RATE_WINDOW_US +
        s.droppedBy cfg now + cfg.rateLimitRps * (now - last)
      rw [Int.sub_mul]
      omega
  · simp only [hallow, decide_false, if_false]
    refine ⟨⟨htokens, hdropped, hlevel⟩, fun hall level hlev => ?_⟩
    simp only [Bool.false_eq_true, if_false] at hlev
    rcases List.mem_append.mp hlev with hlev | hlev
    · exact hall level hlev
    · rw [List.mem_singleton.mp hlev]
      -- an empty bucket has not been refilled
      rcases hd.refill with ⟨helapsed, hlast, heq⟩ | ⟨helapsed, hlast, heq⟩
      · exfalso
        have hseconds : 1 ≤ (now - s.limiter.lastRefillUs) / MCP_RATE_WINDOW_US := by
          rw [hw] at helapsed ⊢
          omega
        have hgain := Int.mul_le_mul hseconds hr (by omega) (by omega)
        have hfit := hok.1
        have hpos := h.tokens
        have hcap := hc.capacity
        have hmax : RATE_INT_MAX = 2147483647 := rfl
        have hcap' : MCP_RATE_CAPACITY = 10 := rfl
        unfold Meter.elapsed at hfit
        rw [wrap32_eq (by omega) (by omega)] at heq
        omega
      · have hdrop : s.droppedBy cfg now = s.dropped := by
          have helapsed' : ¬MCP_RATE_WINDOW_US ≤ s.elapsed now := Int.not_le.mpr helapsed
          unfold Meter.droppedBy
          rw [if_neg helapsed']
        have hbound := hok.2 helapsed (by omega)
        have hzero : tokens = 0 := by omega
        rw [hdrop, hlast, hzero] at hlevel
        unfold Meter.elapsed at hbound
        omega

/-- **The rate limiter is a token bucket** in every run in which no request finds the bucket empty
after a whole token has been dropped or not refilled. -/
theorem sound_of_lossless (hr : 1 ≤ cfg.rateLimitRps) {s : Meter}
    (hs : (meterMachine cfg).ReachableWhen (Meter.Lossless cfg) s) : s.Sound cfg := by
  have hr0 : 0 ≤ cfg.rateLimitRps := by omega
  have hw : MCP_RATE_WINDOW_US = 1000000 := rfl
  have hinv : s.Counted cfg ∧ s.Covered cfg ∧ s.Sound cfg := by
    refine hs.invariant (I := fun s => s.Counted cfg ∧ s.Covered cfg ∧ s.Sound cfg) ?_ ?_
    · intro s h0
      have hs0 : s = { limiter := resetRateLimit s.now, now := s.now, level := LEVEL_MAX } := h0
      have hempty : s.admitted = [] := by rw [hs0]
      have hrefused : s.refused = [] := by rw [hs0]
      have hlimiter : s.limiter = resetRateLimit s.now := by rw [hs0]
      refine ⟨⟨?_, ?_, ?_, by simp [hempty], fun a => .inl ?_⟩, ⟨?_, ?_, ?_⟩,
        ⟨fun a t ht => ?_, by simp [hrefused]⟩⟩
      · rw [hlimiter]
        exact Int.le_refl _
      · rw [hlimiter]
        exact Int.le_refl _
      · rw [hlimiter]
        show -RATE_INT_MAX - 1 ≤ MCP_RATE_CAPACITY
        decide
      · simp [Meter.since, hempty]
      · rw [hlimiter]
        show 0 ≤ MCP_RATE_CAPACITY
        decide
      · rw [hs0]
      · rw [hs0]
        simp [resetRateLimit, LEVEL_MAX]
      · have hseconds : 0 ≤ t / MCP_RATE_WINDOW_US + 1 := by
          rw [hw]
          omega
        have hgain := Int.mul_nonneg hr0 hseconds
        have hcap : MCP_RATE_CAPACITY = 10 := rfl
        simp only [Meter.admittedWithin, hempty, List.countP_nil]
        push_cast
        omega
    · rintro s now s' ⟨hc, hcov, hsound⟩ hok hstep
      obtain ⟨hcov', hrefused⟩ := hcov.step hr hc hok hstep
      exact ⟨hc.step hr0 hstep, hcov', hc.bounded_step hr0 hsound.bounded hstep,
        hrefused hsound.empty⟩
  exact hinv.2.2

/-- One request per second is allowed. -/
def onePerSecond : Config where
  authToken := .empty
  hostAllowlist := .empty
  strictAcceptHeader := false
  rateLimitRps := 1

/-- The meter at the start of the clock. -/
def freshMeter : Meter := { limiter := resetRateLimit 0, now := 0, level := LEVEL_MAX }

set_option maxRecDepth 10000 in
/-- Eleven requests at once, of which one is refused, and one a second later. -/
theorem sound_of_lossless_burst : ∃ s, (meterMachine onePerSecond).ReachableWhen
    (Meter.Lossless onePerSecond) s ∧ s.admitted.length = 11 ∧ s.Sound onePerSecond := by
  have h0 : (meterMachine onePerSecond).init freshMeter := rfl
  have hrun : ((meterMachine onePerSecond).runWhen (Meter.Lossless onePerSecond) freshMeter
      (List.replicate 11 0 ++ [1000000])).map (fun s =>
        decide (s.admitted.length = 11)) = some true := by decide
  obtain ⟨s, hs, hp⟩ := Machine.exists_reachableWhen_of_run h0 hrun
  exact ⟨s, hs, of_decide_eq_true hp, sound_of_lossless (by decide) hs⟩

set_option maxRecDepth 10000 in
/-- A request after 1.9 seconds takes the one token of the refill. At 2.8 seconds the next one is
refused, though two whole seconds have given two tokens. -/
theorem refused_with_token : ¬ ∀ s, (meterMachine onePerSecond).Reachable s →
    s.Sound onePerSecond := by
  intro h
  have h0 : (meterMachine onePerSecond).init freshMeter := rfl
  have hrun : ((meterMachine onePerSecond).run freshMeter
      (List.replicate 10 0 ++ [1900000, 2800000])).map (fun s =>
        decide (s.refused = [1800000])) = some true := by decide
  obtain ⟨s, hs, hp⟩ := Machine.exists_reachable_of_run h0 hrun
  have hlevel := (h s hs).empty 1800000 (by rw [of_decide_eq_true hp]; simp)
  exact absurd hlevel (by decide)

end BleGateway.Mcp
