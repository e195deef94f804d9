import Fbaodv.Proofs.DelayWindow

namespace Fbaodv.Proofs.ProbePairs

open Fbaodv.Model Fbaodv.Model.Node
open Fbaodv.Proofs.Upkeep Fbaodv.Proofs.DelayWindow

/-- The time between the arrivals of a small and a large probe in microseconds,
as far as at most one new second lies between them. -/
def pairDelay (s : SProbe) (l : LProbe) : ℕ :=
  if l.sec.toNat ≤ s.sec.toNat + 1 then (l.sec.toNat - s.sec.toNat) * 1000000 + l.usec.toNat - s.usec.toNat
  else defaultEttMetric.toNat

/-- The large probe did not arrive before the small one. -/
def ArrivedInOrder (s : SProbe) (l : LProbe) : Prop :=
  s.sec.toNat < l.sec.toNat ∨ s.sec.toNat = l.sec.toNat ∧ s.usec.toNat ≤ l.usec.toNat

/-- Until `n'` the neighbour `ip` keeps what it remembers of the small probe. -/
def Meantime (ip : Ip) (n n' : Node) : Prop :=
  ∀ x, n.findAodvNeigh ip = some x → ∃ y, n'.findAodvNeigh ip = some y ∧
    y.ett.lastCount = x.ett.lastCount ∧ y.ett.sec = x.ett.sec ∧ y.ett.usec = x.ett.usec

/-- `recv_lprobe` up to where it has stored the delay of a pair. -/
def storeDelay (t : Task) (l : LProbe) (n : Node) : Node :=
  ((n.updateNeighLifetime t.srcIp).reloadEttCleanup t.srcIp).modifyNeigh t.srcIp fun x ↦
    { x with ett := { x.ett with measDelay := probeDelay x.ett l }, recvRate := l.myRate }

/-- The large probe gives the delay `d`, and the neighbour has it afterwards,
unless the estimation that follows is reset. -/
structure Measures (n : Node) (t : Task) (l : LProbe) (d : ℕ) : Prop where
  stored : ∃ x, (storeDelay t l n).findAodvNeigh t.srcIp = some x ∧ x.ett.measDelay.toNat = d
  kept : ∀ n', n.recvLprobe t l = some n' → ∃ x, n'.findAodvNeigh t.srcIp = some x ∧
    (x.ett.measDelay.toNat = d ∨ ∃ y, x = setEttInterval (resetEttNeigh y))

section Delays

variable {s : SProbe} {l : LProbe} {e : EttParams}

/-- The code's difference across a second is right by chance only. -/
theorem probeDelay_iff (hsec : e.sec = s.sec.toUInt64) (husec : e.usec = s.usec.toUInt64)
    (horder : ArrivedInOrder s l) (hs : s.usec.toNat < 1000000) (hl : l.usec.toNat < 1000000) :
    (probeDelay e l).toNat = pairDelay s l ↔ (l.sec.toNat ≠ s.sec.toNat + 1 ∨ s.sec = s.usec) := by
  have hslt := s.sec.toNat_lt
  have hllt := l.sec.toNat_lt
  have hdiff : (l.sec - s.sec).toNat = l.sec.toNat - s.sec.toNat :=
    UInt32.toNat_sub_of_le _ _ (UInt32.le_iff_toNat_le.mpr (by rcases horder with h | h <;> omega))
  have hzero : l.sec - s.sec = 0 ↔ l.sec.toNat = s.sec.toNat := by
    rw [← UInt32.toNat_inj, hdiff, UInt32.toNat_zero]
    rcases horder with h | h <;> omega
  have hone : l.sec - s.sec = 1 ↔ l.sec.toNat = s.sec.toNat + 1 := by
    rw [← UInt32.toNat_inj, hdiff, UInt32.toNat_one]
    rcases horder with h | h <;> omega
  rw [probeDelay, hsec, husec, UInt32.toUInt32_toUInt64, UInt32.toUInt32_toUInt64]
  simp only [hzero, hone]
  split
  · next h =>
    have husec : (l.usec - s.usec).toNat = l.usec.toNat - s.usec.toNat :=
      UInt32.toNat_sub_of_le _ _ (UInt32.le_iff_toNat_le.mpr (by rcases horder with h' | h' <;> omega))
    rw [husec, pairDelay, if_pos (by omega)]
    refine iff_of_true ?_ (.inl (by omega))
    omega
  split
  · next h =>
    have hcarry : (1000000 + l.usec - s.sec).toNat = (1000000 + l.usec.toNat + (2 ^ 32 - s.sec.toNat)) % 2 ^ 32 := by
      rw [UInt32.toNat_sub, UInt32.toNat_add]
      have hmillion : (1000000 : UInt32).toNat = 1000000 := rfl
      omega
    rw [hcarry, pairDelay, if_pos (by omega), ← UInt32.toNat_inj]
    omega
  · next h h' =>
    rw [pairDelay, if_neg (by rcases horder with h'' | h'' <;> omega)]
    exact iff_of_true rfl (.inl h')

theorem recvSprobe_remembers {n : Node} {x : AodvNeigh} (t : Task) (hx : n.findAodvNeigh t.srcIp = some x) :
    ∃ x', (n.recvSprobe t s).findAodvNeigh t.srcIp = some x' ∧ x'.ett.lastCount = s.nProbe ∧
      x'.ett.sec = s.sec.toUInt64 ∧ x'.ett.usec = s.usec.toUInt64 := by
  have hstored := (Becomes.refl hx).modify (f := updateEtt fun e ↦
    { e with lastCount := s.nProbe, sec := s.sec.toUInt64, usec := s.usec.toUInt64 }) fun _ ↦ rfl
  rw [recvSprobe, hx]
  exact ⟨_, hstored.found, rfl, rfl, rfl⟩

end Delays

section Estimations

variable {ip : Ip} {n n' : Node} {x : AodvNeigh}

/-- An estimation that is reset starts from the beginning, and any other leaves
the measurement. -/
theorem useEstimation_measDelay {recvDelay : UInt32} {ett : EttParams} (hx : n.findAodvNeigh ip = some x)
    (h : n.useEstimation ip ett recvDelay = some n') :
    ∃ x', Becomes ip n x' n' ∧ (x'.ett.measDelay = x.ett.measDelay ∨ ∃ y, x' = resetEttNeigh y) := by
  obtain ⟨x', hx', hestimated⟩ := useEstimation_becomes hx h
  refine ⟨x', hx', ?_⟩
  cases hestimated with
  | reset => exact .inr ⟨x, rfl⟩
  | renewed hett => exact .inl (by rw [hett]; rfl)
  | widened hett => exact .inl (by rw [hett]; rfl)

theorem computeEstimation_measDelay (hx : n.findAodvNeigh ip = some x) (h : n.computeEstimation ip = some n') :
    ∃ x', Becomes ip n x' n' ∧ (x'.ett.measDelay = x.ett.measDelay ∨ ∃ y, x' = resetEttNeigh y) := by
  obtain ⟨y, hy, h⟩ := Option.bind_eq_some_iff.mp h
  obtain rfl : x = y := Option.some.inj (hx.symm.trans hy)
  have hcounted := (Becomes.refl hx).modify
    (f := updateEtt fun _ ↦ { x.ett with countRcv := x.ett.countRcv + 1 }) fun _ ↦ rfl
  dsimp only at h
  split at h
  · refine ⟨_, Option.some.inj h ▸ hcounted, ?_⟩
    exact .inl rfl
  · generalize hett : (Node.computeDelay { x.ett with countRcv := x.ett.countRcv + 1 }).2 = ett at h
    have hmeas : ett.measDelay = x.ett.measDelay := by
      have hrest := computeDelay_rest { x.ett with countRcv := x.ett.countRcv + 1 }
      rw [hett] at hrest
      rcases hrest with rfl | rfl <;> rfl
    have hmeasured := hcounted.modify (f := updateEtt fun _ ↦ ett) fun _ ↦ rfl
    obtain ⟨x', hbecomes, hx'⟩ := useEstimation_measDelay hmeasured.found h
    exact ⟨x', hmeasured.trans hbecomes, hx'.imp_left fun hsame ↦ hsame.trans hmeas⟩

theorem delayVectorAdd_measDelay (delay : UInt32) (e : EttParams) :
    (Node.delayVectorAdd delay e).measDelay = e.measDelay := by
  rw [Node.delayVectorAdd]
  dsimp only
  split <;> rfl

theorem storeDelay_found {t : Task} {l : LProbe} (hx : n.findAodvNeigh t.srcIp = some x) :
    ∃ x', (storeDelay t l n).findAodvNeigh t.srcIp = some x' ∧ x'.ett = { x.ett with measDelay := probeDelay x.ett l } := by
  obtain ⟨x₁, hx₁, hett⟩ := becomes_updateNeighLifetime hx
  have hreloaded : Becomes t.srcIp n x₁ ((n.updateNeighLifetime t.srcIp).reloadEttCleanup t.srcIp) := hx₁.same rfl
  have hmeasured := hreloaded.modify
    (f := fun x ↦ { x with ett := { x.ett with measDelay := probeDelay x.ett l }, recvRate := l.myRate })
    fun _ ↦ rfl
  exact ⟨_, hmeasured.found, by rw [hett]⟩

theorem recvLprobe_pair {t : Task} {l : LProbe} (hx : n.findAodvNeigh t.srcIp = some x)
    (hpair : l.nProbe = x.ett.lastCount) :
    n.recvLprobe t l =
      (if (storeDelay t l n).cfg.gFixedRate = 0 then
        ((storeDelay t l n).modifyNeigh t.srcIp (updateEtt (delayVectorAdd l.lastMeasDelay))).computeEstimation t.srcIp
      else some (storeDelay t l n)).map fun n ↦ n.modifyNeigh t.srcIp setEttInterval := by
  rw [recvLprobe, hx]
  dsimp only
  rw [if_neg (not_not.mpr hpair)]
  rfl

theorem measures_iff {t : Task} {l : LProbe} {d : ℕ} (hx : n.findAodvNeigh t.srcIp = some x)
    (hpair : l.nProbe = x.ett.lastCount) : Measures n t l d ↔ (probeDelay x.ett l).toNat = d := by
  obtain ⟨x₁, hx₁, hett⟩ := storeDelay_found (l := l) hx
  have hmeas : x₁.ett.measDelay = probeDelay x.ett l := by rw [hett]
  constructor
  · rintro ⟨⟨y, hy, hd⟩, -⟩
    obtain rfl := Option.some.inj (hx₁.symm.trans hy)
    rwa [hmeas] at hd
  · intro hd
    refine ⟨⟨x₁, hx₁, hmeas ▸ hd⟩, fun n' h ↦ ?_⟩
    rw [recvLprobe_pair hx hpair] at h
    obtain ⟨n₁, hn₁, rfl⟩ := Option.map_eq_some_iff.mp h
    have hset : ∀ y, n₁.findAodvNeigh t.srcIp = some y →
        (n₁.modifyNeigh t.srcIp setEttInterval).findAodvNeigh t.srcIp = some (setEttInterval y) := fun y hy ↦
      ((Becomes.refl hy).modify (by intro; rfl)).found
    split at hn₁
    · have hadded := (Becomes.refl hx₁).modify (f := updateEtt (Node.delayVectorAdd l.lastMeasDelay)) fun _ ↦ rfl
      obtain ⟨x', hx', hkept⟩ := computeEstimation_measDelay hadded.found hn₁
      refine ⟨_, hset x' hx'.found, ?_⟩
      rcases hkept with hkept | ⟨y, rfl⟩
      · refine .inl ?_
        change x'.ett.measDelay.toNat = d
        rw [hkept, ← hd, ← hmeas]
        exact congrArg UInt32.toNat (delayVectorAdd_measDelay _ _)
      · exact .inr ⟨y, rfl⟩
    · obtain rfl := Option.some.inj hn₁
      exact ⟨_, hset x₁ hx₁, .inl (hmeas ▸ hd)⟩

end Estimations

/-- The two probes of a pair are measured right exactly if no second begins
between them, or more than one, or the small probe's microseconds are its
seconds. -/
theorem pair_delay_iff {n n' : Node} {t t' : Task} {s : SProbe} {l : LProbe}
    (hfound : (n.findAodvNeigh t.srcIp).isSome) (hbetween : Meantime t.srcIp (n.recvSprobe t s) n')
    (hsrc : t'.srcIp = t.srcIp) (hpair : l.nProbe = s.nProbe) (horder : ArrivedInOrder s l)
    (hs : s.usec.toNat < 1000000) (hl : l.usec.toNat < 1000000) :
    Measures n' t' l (pairDelay s l) ↔ (l.sec.toNat ≠ s.sec.toNat + 1 ∨ s.sec = s.usec) := by
  obtain ⟨x, hx⟩ := Option.isSome_iff_exists.mp hfound
  obtain ⟨x', hx', hcount, hsec, husec⟩ := recvSprobe_remembers (s := s) t hx
  obtain ⟨y, hy, hycount, hysec, hyusec⟩ := hbetween x' hx'
  rw [measures_iff (hsrc ▸ hy) (hpair.trans (hycount.trans hcount).symm)]
  exact probeDelay_iff (hysec.trans hsec) (hyusec.trans husec) horder hs hl

/-- A small probe of the neighbour, and the large one after it. -/
def smallProbe (sec usec : UInt32) : SProbe := ⟨7, 0x0101a8c0, 0x0201a8c0, sec, usec⟩

def largeProbe (sec usec : UInt32) : LProbe := ⟨7, 0, 0x0101a8c0, 0x0201a8c0, sec, usec, 900⟩

/-- The task of a probe of the neighbour. -/
def probeTask (type : TaskType) : Task := { createTask type 0 with srcIp := 0x0201a8c0 }

theorem probedStation_found : (probedStation.findAodvNeigh 0x0201a8c0).isSome := by decide +kernel

theorem pair_delay_same_second :
    Measures (probedStation.recvSprobe (probeTask .recvSEtt) (smallProbe 10 999100)) (probeTask .recvLEtt)
      (largeProbe 10 999900) 800 := by
  have hmeantime : Meantime 0x0201a8c0 (probedStation.recvSprobe (probeTask .recvSEtt) (smallProbe 10 999100))
      (probedStation.recvSprobe (probeTask .recvSEtt) (smallProbe 10 999100)) := fun x hx ↦ ⟨x, hx, rfl, rfl, rfl⟩
  have hmeasures : Measures _ (probeTask .recvLEtt) (largeProbe 10 999900)
      (pairDelay (smallProbe 10 999100) (largeProbe 10 999900)) ↔ _ :=
    pair_delay_iff (t := probeTask .recvSEtt) probedStation_found hmeantime rfl rfl (.inr ⟨rfl, by decide⟩) (by decide)
      (by decide)
  exact hmeasures.mpr (.inl (by decide))

/-- A new second begins 100 microseconds after the small probe, the large one
arrives another 100 later, and the delay is taken for more than a second. -/
theorem pair_delay_next_second : pairDelay (smallProbe 10 999900) (largeProbe 11 100) = 200 ∧
    ¬ Measures (probedStation.recvSprobe (probeTask .recvSEtt) (smallProbe 10 999900)) (probeTask .recvLEtt)
      (largeProbe 11 100) 200 := by
  refine ⟨rfl, fun h ↦ ?_⟩
  obtain ⟨x, hx⟩ := Option.isSome_iff_exists.mp probedStation_found
  obtain ⟨x', hx', hcount, hsec, husec⟩ := recvSprobe_remembers (s := smallProbe 10 999900) (probeTask .recvSEtt) hx
  have hdelay := (measures_iff (t := probeTask .recvLEtt) (l := largeProbe 11 100) hx' hcount.symm).mp h
  rw [probeDelay, hsec, husec] at hdelay
  exact absurd hdelay (by decide)

end Fbaodv.Proofs.ProbePairs
