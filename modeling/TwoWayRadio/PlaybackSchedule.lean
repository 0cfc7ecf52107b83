import TwoWayRadio.AudioEngine
import Mathlib.Data.Rat.Floor
import Mathlib.Order.CompletePartialOrder
import Mathlib.Order.Interval.Set.Disjoint
import Mathlib.Tactic.Linarith

/-! The playback timeline of the browser: when each incoming packet is played. Times are in
seconds of the audio clock, as exact rationals. -/
namespace TwoWayRadio

/-- A packet that was scheduled: when it came in, and the interval in which it is played. -/
structure Play where
  arrival : ℚ
  start : ℚ
  finish : ℚ

/-- `plays` lists what `source.start` has been called with, oldest first. -/
structure PlaybackTimeline where
  nextPlayTime : ℚ := 0
  plays : List Play := []

def targetSampleRate : ℚ := 16000

/-- `flags & 0x01` of the header. -/
def flaggedFirst (data : Bytes) : Bool := data.getD 3 0 &&& 0x01 ≠ 0

/-- `audioBuffer.duration`. -/
def playingTime (data : Bytes) : ℚ := ((data.length - 8) / 2 : ℕ) / targetSampleRate

namespace PlaybackTimeline

/-- Where a packet that comes in at `now` goes on the timeline. -/
def startTime (now : ℚ) (isFirst : Bool) (p : PlaybackTimeline) : ℚ :=
  if isFirst ∨ p.nextPlayTime < now then now + 20 / 1000
  else if now + 65 / 1000 < p.nextPlayTime then now + 20 / 1000
  else p.nextPlayTime

def onIncomingAudioChunk (now : ℚ) (data : Bytes) (p : PlaybackTimeline) : PlaybackTimeline :=
  if data.length ≤ 8 then p
  else
    let start := p.startTime now (flaggedFirst data)
    { nextPlayTime := start + playingTime data,
      plays := p.plays ++ [⟨now, start, start + playingTime data⟩] }

end PlaybackTimeline

/-- An incoming packet, which has samples and no odd byte. -/
structure Arrival where
  now : ℚ
  data : Bytes
  full : 8 < data.length ∧ data.length % 2 = 0

theorem Arrival.playingTime_pos (a : Arrival) : 0 < playingTime a.data := by
  have hsamples : 0 < (a.data.length - 8) / 2 := by
    have := a.full
    omega
  unfold playingTime targetSampleRate
  exact div_pos (Nat.cast_pos.mpr hsamples) (by norm_num)

/-- The packets of one transmission as they come in: the first one is flagged, and the audio clock
does not go back. -/
structure IncomingTransmission where
  first : Arrival
  rest : List Arrival
  flagged : flaggedFirst first.data = true
  ordered : (first :: rest).Pairwise fun a b => a.now ≤ b.now

namespace PlaybackTimeline

variable {p : PlaybackTimeline} {a : Arrival}

def hear (p : PlaybackTimeline) (a : Arrival) : PlaybackTimeline :=
  p.onIncomingAudioChunk a.now a.data

def hearAll (p : PlaybackTimeline) (arrivals : List Arrival) : PlaybackTimeline :=
  arrivals.foldl hear p

theorem hear_eq (p : PlaybackTimeline) (a : Arrival) :
    p.hear a = {
      nextPlayTime := p.startTime a.now (flaggedFirst a.data) + playingTime a.data,
      plays := p.plays ++ [⟨a.now, p.startTime a.now (flaggedFirst a.data),
        p.startTime a.now (flaggedFirst a.data) + playingTime a.data⟩] } :=
  if_neg (Nat.not_le.mpr a.full.1)

/-- Nothing is played at the same time as something else or out of turn, nor before it is there. -/
structure Gapless (p : PlaybackTimeline) : Prop where
  apart : p.plays.Pairwise fun a b =>
    Disjoint (Set.Ico a.start a.finish) (Set.Ico b.start b.finish) ∧ a.start < b.start
  heard : ∀ a ∈ p.plays, a.arrival ≤ a.start

/-- What is on the timeline ends no more than 65 ms after the packet comes in, or 20 ms if the
packet is flagged as the first of a transmission. -/
def OnTime (p : PlaybackTimeline) (a : Arrival) : Prop :=
  p.nextPlayTime ≤ a.now + if flaggedFirst a.data then 20 / 1000 else 65 / 1000

/-- Each packet comes in on time. -/
def KeepsUp : PlaybackTimeline → List Arrival → Prop
  | _, [] => True
  | p, a :: rest => p.OnTime a ∧ KeepsUp (p.hear a) rest

/-- The jitter buffer and the clamp never schedule into the past. -/
theorem now_le_startTime (now : ℚ) (isFirst : Bool) : now ≤ p.startTime now isFirst := by
  unfold startTime
  split_ifs with hreset hclamp
  · linarith
  · linarith
  · exact not_lt.mp fun hlt => hreset (Or.inr hlt)

/-- The end of the timeline is kept by what comes in on time, and by nothing else. -/
theorem nextPlayTime_le_startTime :
    p.nextPlayTime ≤ p.startTime a.now (flaggedFirst a.data) ↔ p.OnTime a := by
  unfold startTime OnTime
  cases flaggedFirst a.data with
  | true => simp
  | false =>
    simp only [Bool.false_eq_true, false_or, if_false]
    split_ifs with hlate hclamp
    · exact iff_of_true (by linarith) (by linarith)
    · exact iff_of_false (by linarith) (by linarith)
    · exact iff_of_true le_rfl (not_lt.mp hclamp)

/-- Two intervals are apart and in turn when the first is over before the second begins. -/
theorem apart_iff {a b : Play} (ha : a.start < a.finish) (hb : b.start < b.finish) :
    Disjoint (Set.Ico a.start a.finish) (Set.Ico b.start b.finish) ∧ a.start < b.start ↔
      a.finish ≤ b.start := by
  rw [Set.Ico_disjoint_Ico]
  constructor
  · rintro ⟨hmeet, hlt⟩
    rw [max_eq_right hlt.le, min_le_iff] at hmeet
    exact hmeet.resolve_right (not_le.mpr hb)
  · intro hle
    exact ⟨(min_le_left _ _).trans (hle.trans (le_max_right _ _)), ha.trans_le hle⟩

/-- The timeline ends where the last interval on it does. -/
structure Scheduled (p : PlaybackTimeline) : Prop where
  played : ∀ a ∈ p.plays, a.start < a.finish ∧ a.arrival ≤ a.start
  last : ∃ before a, p.plays = before ++ [a] ∧ a.finish = p.nextPlayTime

theorem Scheduled.hear (hp : ∀ a ∈ p.plays, a.start < a.finish ∧ a.arrival ≤ a.start)
    (a : Arrival) : (p.hear a).Scheduled := by
  rw [hear_eq]
  refine ⟨fun b hb => ?_, p.plays, _, rfl, rfl⟩
  rcases List.mem_append.mp hb with hb | hb
  · exact hp b hb
  · obtain rfl := List.mem_singleton.mp hb
    exact ⟨lt_add_of_pos_right _ a.playingTime_pos, now_le_startTime ..⟩

/-- While nothing overlaps, everything on the timeline is over when it ends. -/
theorem Scheduled.finish_le (hp : p.Scheduled) (hg : p.Gapless) :
    ∀ b ∈ p.plays, b.finish ≤ p.nextPlayTime := by
  obtain ⟨before, a, hplays, hlast⟩ := hp.last
  have hapart := hg.apart
  rw [hplays, List.pairwise_append] at hapart
  intro b hb
  have hlong := (hp.played b hb).1
  rw [hplays] at hb
  rcases List.mem_append.mp hb with hb | hb
  · have ha : a ∈ p.plays := by
      rw [hplays]
      exact List.mem_append_right _ (List.mem_singleton_self a)
    have hbefore := (apart_iff hlong (hp.played a ha).1).mp
      (hapart.2.2 b hb a (List.mem_singleton_self a))
    calc b.finish ≤ a.start := hbefore
      _ ≤ a.finish := (hp.played a ha).1.le
      _ = p.nextPlayTime := hlast
  · rw [List.mem_singleton.mp hb, hlast]

/-- One packet leaves the timeline without overlaps exactly if it comes in on time. -/
theorem gapless_hear (hp : p.Scheduled) : (p.hear a).Gapless ↔ p.Gapless ∧ p.OnTime a := by
  have hafter := Scheduled.hear hp.played a
  rw [← nextPlayTime_le_startTime]
  constructor
  · intro hg
    have hapart := hg.apart
    rw [hear_eq, List.pairwise_append] at hapart
    refine ⟨⟨hapart.1, fun b hb => (hp.played b hb).2⟩, ?_⟩
    -- the last interval that was there is over when the new one begins
    obtain ⟨before, last, hplays, hlast⟩ := hp.last
    have hmem : last ∈ p.plays := by
      rw [hplays]
      exact List.mem_append_right _ (List.mem_singleton_self last)
    rw [← hlast]
    exact (apart_iff (hp.played last hmem).1 (lt_add_of_pos_right _ a.playingTime_pos)).mp
      (hapart.2.2 last hmem _ (List.mem_singleton_self _))
  · rintro ⟨hg, htime⟩
    refine ⟨?_, fun b hb => (hafter.played b hb).2⟩
    rw [hear_eq, List.pairwise_append]
    refine ⟨hg.apart, List.pairwise_singleton _ _, fun b hb c hc => ?_⟩
    obtain rfl := List.mem_singleton.mp hc
    apply (apart_iff (hp.played b hb).1 (lt_add_of_pos_right _ a.playingTime_pos)).mpr
    exact (hp.finish_le hg b hb).trans htime

theorem gapless_hearAll (hp : p.Scheduled) (arrivals : List Arrival) :
    (p.hearAll arrivals).Gapless ↔ p.Gapless ∧ p.KeepsUp arrivals := by
  induction arrivals generalizing p with
  | nil => exact (and_iff_left trivial).symm
  | cons a rest ih =>
    show ((p.hear a).hearAll rest).Gapless ↔ _
    rw [ih (Scheduled.hear hp.played a), gapless_hear hp, and_assoc]
    rfl

end PlaybackTimeline

open PlaybackTimeline in
/-- A transmission is played without overlaps, in order and never early, whatever was left of the
timeline before it, exactly if each packet after the first comes in on time. -/
theorem playback_gapless_iff (t : IncomingTransmission) (nextPlayTime : ℚ) :
    ((PlaybackTimeline.mk nextPlayTime []).hearAll (t.first :: t.rest)).Gapless ↔
      ((PlaybackTimeline.mk nextPlayTime []).hear t.first).KeepsUp t.rest := by
  have hfirst : ((PlaybackTimeline.mk nextPlayTime []).hear t.first).Scheduled :=
    Scheduled.hear (fun a ha => (List.not_mem_nil ha).elim) t.first
  show (((PlaybackTimeline.mk nextPlayTime []).hear t.first).hearAll t.rest).Gapless ↔ _
  rw [gapless_hearAll hfirst]
  refine and_iff_right ⟨?_, fun a ha => (hfirst.played a ha).2⟩
  rw [hear_eq]
  exact List.pairwise_singleton _ _

/-- A frame of 40 ms as the engine sends it. -/
def frame40ms (flags : UInt8) (seqNum : UInt32) : Arrival where
  now := 0
  data := encodeAudioPacket 1 flags seqNum (List.replicate 1280 0)
  full := by
    have hlength : (encodeAudioPacket 1 flags seqNum (List.replicate 1280 0)).length = 1288 := by
      rw [encodeAudioPacket, List.length_append, List.length_replicate]
      rfl
    rw [hlength]
    decide

/-- Three frames of a flushed pre-buffer, which come in at once. -/
def flushedBurst : IncomingTransmission where
  first := frame40ms flagAudioFirst 1
  rest := [frame40ms 0 2, frame40ms 0 3]
  flagged := by decide +kernel
  ordered := by decide +kernel

/-- The third frame is played over the first. -/
theorem playback_gapless_fails :
    (((PlaybackTimeline.mk 0 []).hearAll (flushedBurst.first :: flushedBurst.rest)).plays.map
      fun a => (a.start, a.finish)) = [(1 / 50, 3 / 50), (3 / 50, 1 / 10), (1 / 50, 3 / 50)] ∧
    ¬ ((PlaybackTimeline.mk 0 []).hearAll (flushedBurst.first :: flushedBurst.rest)).Gapless := by
  have hplays : (((PlaybackTimeline.mk 0 []).hearAll
      (flushedBurst.first :: flushedBurst.rest)).plays.map fun a => (a.start, a.finish)) =
        [(1 / 50, 3 / 50), (3 / 50, 1 / 10), (1 / 50, 3 / 50)] := by
    decide +kernel
  refine ⟨hplays, fun hg => ?_⟩
  have hsorted : ((((PlaybackTimeline.mk 0 []).hearAll
      (flushedBurst.first :: flushedBurst.rest)).plays.map fun a =>
        (a.start, a.finish)).map Prod.fst).Pairwise (· < ·) := by
    rw [List.map_map]
    exact List.pairwise_map.mpr (hg.apart.imp fun h => h.2)
  rw [hplays] at hsorted
  exact absurd hsorted (by decide +kernel)

end TwoWayRadio
