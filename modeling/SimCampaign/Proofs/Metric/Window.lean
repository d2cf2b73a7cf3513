import SimCampaign.Metric.Throughput
import SimCampaign.Proofs.Binary64.Arithmetic
import SimCampaign.Proofs.Except

/-! The throughput of a window that no packet lies in. -/

namespace SimCampaign
open Param (Assignment)
open Binary64 (IsZero)

theorem Duration.isNaN_secs (d : Duration) : d.secs.isNaN = false := by
  have hunit : (1e6 : Float).toModel.unpack =
      .finite .positive 8589934592000000 (-33) (by decide) := rfl
  exact Binary64.isNaN_div_of_finite (Binary64.isNaN_toFloat d.us) hunit

namespace PacketTrace
variable {t : PacketTrace}

theorem sentAfter_eq_nil_iff {secs : Float} :
    t.sentAfter secs = [] ↔ ∀ p ∈ t, ¬ secs < p.sent / 1e9 := by
  simp [sentAfter]

theorem isZero_bits_nil : IsZero (totalBytes [] * 8.0 / 1e6) := ⟨.negative, rfl⟩

end PacketTrace

namespace Metric
variable {w : Window} {t : PacketTrace} {params : Assignment} {time : Float} {us : ℕ}

/-- The seconds that a window leaves out when it leaves out the first interval. -/
def warmup (us : ℕ) : Float := Duration.secs ⟨us.toUInt64⟩

namespace Window

def counted (w : Window) (warmup : Float) (t : PacketTrace) : PacketTrace :=
  match w with
  | .full => t
  | .skipFirstInterval => t.sentAfter warmup

def span (w : Window) (time warmup : Float) : Float :=
  match w with
  | .full => time
  | .skipFirstInterval => time - warmup

def rate (w : Window) (time warmup : Float) (t : PacketTrace) : Float :=
  if t.isEmpty then 0.0 else (w.counted warmup t).totalBytes * 8.0 / 1e6 / w.span time warmup

/-- What a window needs to know of the parameters. -/
structure Reads (w : Window) (params : Assignment) (time : Float) (us : ℕ) : Prop where
  time : params.float Name.simulationTime = .ok time
  interval : w = .skipFirstInterval → params.count Name.beaconInterval = .ok us

theorem Reads.throughput_eq (h : w.Reads params time us) (t : PacketTrace) :
    w.throughput t params = .ok (w.rate time (warmup us) t) := by
  rw [throughput, rate]
  split
  · rfl
  cases w with
  | full =>
    rw [h.time]
    rfl
  | skipFirstInterval =>
    rw [h.time, h.interval rfl]
    rfl

def Misses (w : Window) (warmup : Float) (t : PacketTrace) : Prop :=
  t = [] ∨ w = .skipFirstInterval ∧ ∀ p ∈ t, ¬ warmup < p.sent / 1e9

/-- The rate of nothing is zero, but a trace whose packets all come before the end of the interval
has none if that is the end of the simulated time as well. -/
theorem rate_of_misses (hfinite : time.isFinite = true) (h : w.Misses (warmup us) t) :
    ((w.rate time (warmup us) t).isNaN = true ↔ t ≠ [] ∧ (time == warmup us) = true) ∧
      ((w.rate time (warmup us) t).isNaN = false → (w.rate time (warmup us) t == 0.0) = true) := by
  by_cases ht : t = []
  · subst ht
    have hzero : (0.0 : Float).isNaN = false := rfl
    rw [rate, List.isEmpty_nil, if_pos rfl, hzero]
    exact ⟨iff_of_false Bool.false_ne_true fun hne => hne.1 rfl, fun _ => rfl⟩
  · obtain ⟨rfl, hearly⟩ := h.resolve_left ht
    have hnone : counted .skipFirstInterval (warmup us) t = [] :=
      PacketTrace.sentAfter_eq_nil_iff.2 hearly
    have hsub := Binary64.sub_of_isFinite hfinite (Duration.isNaN_secs ⟨us.toUInt64⟩)
    have hdiv := Binary64.zero_div PacketTrace.isZero_bits_nil hsub.1
    rw [rate, if_neg (by simpa using ht), hnone, ← Binary64.isZero_iff_beq]
    exact ⟨hdiv.1.trans (hsub.2.trans (and_iff_right ht).symm), hdiv.2⟩

end Window

/-- A window that no packet lies in has a throughput, which is zero with the one exception. -/
theorem throughput_of_misses (htime : params.float Name.simulationTime = .ok time)
    (hfinite : time.isFinite = true) (hus : params.count Name.beaconInterval = .ok us)
    (h : w.Misses (warmup us) t) :
    ∃ y, w.throughput t params = .ok y ∧
      (y.isNaN = true ↔ t ≠ [] ∧ (time == warmup us) = true) ∧
      (y.isNaN = false → (y == 0.0) = true) := by
  have hreads : w.Reads params time us := ⟨htime, fun _ => hus⟩
  exact ⟨_, hreads.throughput_eq t, w.rate_of_misses hfinite h⟩

/-- A run of some length whose intervals take 102400 microseconds. -/
def lasting (time : Float) : Assignment :=
  .ofPairs [(Name.simulationTime, .float time), (Name.beaconInterval, .int 102400)]

def firstPacket : Packet where
  source := 1
  sent := 0
  received := 1
  size := 10

theorem misses_firstPacket : Window.skipFirstInterval.Misses (warmup 102400) [firstPacket] := by
  refine .inr ⟨rfl, fun p hp => ?_⟩
  obtain rfl := List.mem_singleton.1 hp
  decide +kernel

/-- A run of two intervals and its only packet, sent at the start. -/
theorem throughput_of_misses_twoIntervals :
    ∃ y, Window.skipFirstInterval.throughput [firstPacket] (lasting 0.2048) = .ok y ∧
      (y == 0.0) = true := by
  have htime : (lasting 0.2048).float Name.simulationTime = .ok 0.2048 := rfl
  have hus : (lasting 0.2048).count Name.beaconInterval = .ok 102400 := rfl
  have hlonger : ((0.2048 : Float) == warmup 102400) = false := by decide +kernel
  have hfinite : (0.2048 : Float).isFinite = true := by decide +kernel
  obtain ⟨y, hy, hnan, hzero⟩ := throughput_of_misses htime hfinite hus misses_firstPacket
  refine ⟨y, hy, hzero (Bool.eq_false_iff.2 fun h => ?_)⟩
  rw [hlonger] at hnan
  cases (hnan.1 h).2

/-- The same packet in a run of one interval. -/
theorem throughput_singleInterval :
    ∃ y, Window.skipFirstInterval.throughput [firstPacket] (lasting 0.1024) = .ok y ∧
      y.isNaN = true := by
  have htime : (lasting 0.1024).float Name.simulationTime = .ok 0.1024 := rfl
  have hus : (lasting 0.1024).count Name.beaconInterval = .ok 102400 := rfl
  have hreads : Window.skipFirstInterval.Reads (lasting 0.1024) 0.1024 102400 :=
    ⟨htime, fun _ => hus⟩
  refine ⟨_, hreads.throughput_eq _, ?_⟩
  decide +kernel

end Metric
end SimCampaign
