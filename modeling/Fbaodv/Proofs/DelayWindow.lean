import Fbaodv.Proofs.DelayLoops
import Fbaodv.Proofs.NeighActs
import Fbaodv.Proofs.PacketDiscovery

namespace Fbaodv.Proofs.DelayWindow

open Fbaodv.Model Fbaodv.Model.Node Fbaodv.Foundation
open Fbaodv.Proofs.RouteEffects (renewEtt widenEtt useEstimation_cases)
open Fbaodv.Proofs.Background Fbaodv.Proofs.Upkeep Fbaodv.Proofs.NeighActs Fbaodv.Proofs.DelayLoops
open Fbaodv.Proofs.PacketDiscovery

/-- What the estimation relies on between two messages. -/
structure EttWindow (e : EttParams) : Prop where
  length : e.recvDelays.length = ettProbesMax
  sorted : e.recvDelays.Pairwise (· ≤ ·)
  bounded : ∀ d ∈ e.recvDelays, d ≤ defaultEttMetric
  least : ettProbesMin ≤ e.ettWindow.toNat
  largest : e.ettWindow.toNat ≤ ettProbesMax
  count : e.countRcv < e.ettWindow

/-- The neighbour `ip` has become `x`, and no other has changed. -/
structure Becomes (ip : Ip) (n : Node) (x : AodvNeigh) (n' : Node) : Prop where
  found : n'.findAodvNeigh ip = some x
  others : ∀ ip' ≠ ip, n'.findAodvNeigh ip' = n.findAodvNeigh ip'

/-- The history of a node from where `create_aodv_neigh` took in the neighbour
`ip`. Between two messages about an estimation anything may happen that leaves
the one of `ip` alone. -/
inductive ProbeRun (ip : Ip) : Node → Prop
  | create {n n' : Node} (h : n.createAodvNeigh ip = some (true, n')) : ProbeRun ip n'
  | lprobe {n n' : Node} {t : Task} {m : LProbe} (hn : ProbeRun ip n)
      (h : n.recvLprobe t m = some n') : ProbeRun ip n'
  | ettInfo {n n' : Node} {t : Task} {m : EttInfo} (hn : ProbeRun ip n)
      (h : n.recvEttInfo t m = some n') : ProbeRun ip n'
  | reset {n n' : Node} {ip' : Ip} (hn : ProbeRun ip n) (hip' : (n.findAodvNeigh ip').isSome)
      (h : n.resetEtt ip' = some n') : ProbeRun ip n'
  | between {n n' : Node} (hn : ProbeRun ip n)
      (h : ∀ x', n'.findAodvNeigh ip = some x' → ∃ x, n.findAodvNeigh ip = some x ∧
        x'.ett.recvDelays = x.ett.recvDelays ∧ x'.ett.ettWindow = x.ett.ettWindow ∧
        x'.ett.countRcv = x.ett.countRcv) : ProbeRun ip n'

section Windows

variable {e : EttParams} {delay : UInt32}

theorem EttWindow.of_eq {e' : EttParams} (he : EttWindow e) (hdelays : e'.recvDelays = e.recvDelays)
    (hwindow : e'.ettWindow = e.ettWindow) (hcount : e'.countRcv = e.countRcv) : EttWindow e' where
  length := hdelays ▸ he.length
  sorted := hdelays ▸ he.sorted
  bounded := hdelays ▸ he.bounded
  least := hwindow ▸ he.least
  largest := hwindow ▸ he.largest
  count := by rw [hwindow, hcount]; exact he.count

theorem ettWindow_of_init (hdelays : e.recvDelays = delayVectorInit)
    (hleast : ettProbesMin ≤ e.ettWindow.toNat) (hlargest : e.ettWindow.toNat ≤ ettProbesMax)
    (hcount : e.countRcv < e.ettWindow) : EttWindow e where
  length := by rw [hdelays, delayVectorInit, List.length_replicate]
  sorted := hdelays ▸ List.pairwise_replicate.mpr (.inr (UInt32.le_refl _))
  bounded := by
    intro d hd
    rw [hdelays] at hd
    exact List.eq_of_mem_replicate hd ▸ UInt32.le_refl _
  least := hleast
  largest := hlargest
  count := hcount

theorem addDelay_length {count : ℕ} {v : List UInt32} (hcount : count ≤ v.length) :
    (addDelay delay count v).length = v.length := by
  induction v generalizing count with
  | nil =>
    obtain rfl := Nat.le_zero.mp hcount
    rfl
  | cons d v ih =>
    cases count with
    | zero => rfl
    | succ count =>
      have hcount : count ≤ v.length := Nat.le_of_succ_le_succ hcount
      by_cases hlt : delay < d
      · rw [addDelay_cons_of_lt hcount hlt]
        simp only [List.length_cons, List.length_append, List.length_take, List.length_drop]
        omega
      · rw [addDelay_cons_of_not_lt hlt, List.length_cons, ih hcount, List.length_cons]

theorem addDelay_sorted {count : ℕ} {v : List UInt32} (hcount : count ≤ v.length)
    (hv : v.Pairwise (· ≤ ·)) : (addDelay delay count v).Pairwise (· ≤ ·) ∧
      ∀ d ∈ addDelay delay count v, d ∈ v ∨ d = delay ∧ ∃ d' ∈ v, delay < d' := by
  induction v generalizing count with
  | nil =>
    obtain rfl := Nat.le_zero.mp hcount
    exact ⟨hv, fun d hd ↦ .inl hd⟩
  | cons d v ih =>
    cases count with
    | zero => exact ⟨hv, fun d hd ↦ .inl hd⟩
    | succ count =>
      have hcount : count ≤ v.length := Nat.le_of_succ_le_succ hcount
      obtain ⟨hd, hrest⟩ := List.pairwise_cons.mp hv
      by_cases hlt : delay < d
      · rw [addDelay_cons_of_lt hcount hlt]
        have hsub : ((d :: v).take count ++ v.drop count).Sublist (d :: v) := by
          have hdrop : (v.drop count).Sublist ((d :: v).drop count) := by
            rw [← List.drop_succ_cons (a := d)]
            exact List.drop_sublist_drop_left _ (Nat.le_succ count)
          have hall := hdrop.append_left ((d :: v).take count)
          rwa [List.take_append_drop] at hall
        refine ⟨List.pairwise_cons.mpr ⟨fun y hy ↦ ?_, hv.sublist hsub⟩, fun y hy ↦ ?_⟩
        · rcases List.mem_cons.mp (hsub.subset hy) with rfl | hy
          · exact UInt32.le_of_lt hlt
          · exact UInt32.le_trans (UInt32.le_of_lt hlt) (hd y hy)
        · rcases List.mem_cons.mp hy with rfl | hy
          · exact .inr ⟨rfl, d, List.mem_cons_self, hlt⟩
          · exact .inl (hsub.subset hy)
      · obtain ⟨hsorted, hmem⟩ := ih hcount hrest
        rw [addDelay_cons_of_not_lt hlt]
        refine ⟨List.pairwise_cons.mpr ⟨fun y hy ↦ ?_, hsorted⟩, fun y hy ↦ ?_⟩
        · rcases hmem y hy with hy | ⟨rfl, -⟩
          · exact hd y hy
          · exact UInt32.not_lt.mp hlt
        · rcases List.mem_cons.mp hy with rfl | hy
          · exact .inl List.mem_cons_self
          · rcases hmem y hy with hy | ⟨hy, d', hd', hlt'⟩
            · exact .inl (List.mem_cons_of_mem _ hy)
            · exact .inr ⟨hy, d', List.mem_cons_of_mem _ hd', hlt'⟩

theorem EttWindow.delayVectorAdd (he : EttWindow e) (delay : UInt32) :
    EttWindow (Node.delayVectorAdd delay e) := by
  have hcount : e.countRcv.toNat + 1 ≤ e.recvDelays.length := by
    have hlt := UInt8.lt_iff_toNat_lt.mp he.count
    have hlargest := he.largest
    rw [he.length]
    omega
  obtain ⟨hsorted, hmem⟩ := @addDelay_sorted delay _ _ hcount he.sorted
  rw [delayVectorAdd_eq]
  refine ⟨(addDelay_length hcount).trans he.length, hsorted, fun d hd ↦ ?_, he.least, he.largest,
    he.count⟩
  rcases hmem d hd with hd | ⟨rfl, d', hd', hlt⟩
  · exact he.bounded d hd
  · exact UInt32.le_trans (UInt32.le_of_lt hlt) (he.bounded d' hd')

/-- No access leaves the array, and nothing wraps. -/
theorem EttWindow.checked (he : EttWindow e) (delay : UInt32) (count : UInt8) :
    DelayVector.delayVectorAdd delay e = some (Node.delayVectorAdd delay e) ∧
      DelayVector.computeDelay { Node.delayVectorAdd delay e with countRcv := count } =
        some (Node.computeDelay { Node.delayVectorAdd delay e with countRcv := count }) := by
  have hadd := he.delayVectorAdd delay
  have hcount : e.countRcv.toNat < ettProbesMax := by
    have hlt := UInt8.lt_iff_toNat_lt.mp he.count
    have hlargest := he.largest
    omega
  exact ⟨delayVectorAdd_checked he.length hcount,
    computeDelay_checked hadd.length hadd.largest (hadd.sorted.sublist (List.take_sublist _ _))
      fun d hd ↦ hadd.bounded d (List.mem_of_mem_take hd)⟩

end Windows

section Handlers

variable {ip : Ip} {n n' n'' : Node} {x x' : AodvNeigh}

theorem Becomes.refl (h : n.findAodvNeigh ip = some x) : Becomes ip n x n := ⟨h, fun _ _ ↦ rfl⟩

theorem Becomes.same (h : Becomes ip n x n') (hneighs : n''.aodvNeighList = n'.aodvNeighList) :
    Becomes ip n x n'' where
  found := by rw [findAodvNeigh, hneighs]; exact h.found
  others ip' hip' := by rw [findAodvNeigh, hneighs]; exact h.others ip' hip'

theorem Becomes.modify (h : Becomes ip n x n') {f : AodvNeigh → AodvNeigh}
    (hf : ∀ y, (f y).ip = y.ip) : Becomes ip n (f x) (n'.modifyNeigh ip f) where
  found := by
    have hfind := @OrderedList.findWhile_modifyFirst _ (fun y ↦ y.ip ≤ ip) (fun y ↦ y.ip == ip) f
      (fun y ↦ by rw [hf]) (fun y ↦ by rw [hf]) n'.aodvNeighList
    have hx : n'.findAodvNeigh ip = some x := h.found
    rw [findAodvNeigh] at hx
    rw [hx] at hfind
    exact hfind
  others ip' hip' := by
    rw [← h.others ip' hip']
    refine OrderedList.findWhile_modifyFirst_of_neg (fun y ↦ by rw [hf]) (fun y ↦ by rw [hf])
      (fun y hy ↦ ?_) n'.aodvNeighList
    rw [beq_iff_eq] at hy
    simpa [hy] using hip'.symm

theorem Becomes.trans (h : Becomes ip n x n') (h' : Becomes ip n' x' n'') : Becomes ip n x' n'' :=
  ⟨h'.found, fun ip' hip' ↦ (h'.others ip' hip').trans (h.others ip' hip')⟩

theorem steady_sendEttInfo (ip : Ip) (myRate : UInt16) (fixed : UInt8) :
    Steady isPlain n (n.sendEttInfo ip myRate fixed) := by
  unfold sendEttInfo
  dsimp only
  split
  · exact steady_alloc
  split
  · exact steady_alloc
  · exact steady_alloc.trans (steady_sendMessage trivial)

theorem ettWindow_resetEttNeigh (x : AodvNeigh) : EttWindow (resetEttNeigh x).ett := by
  have hfirst : ettProbesMin ≤ (UInt8.ofNat (ettProbesMin + 1)).toNat ∧
      (UInt8.ofNat (ettProbesMin + 1)).toNat ≤ ettProbesMax ∧
      (0 : UInt8) < UInt8.ofNat (ettProbesMin + 1) := by decide
  exact ettWindow_of_init rfl hfirst.1 hfirst.2.1 hfirst.2.2

theorem becomes_resetEtt (hx : n.findAodvNeigh ip = some x) (h : n.resetEtt ip = some n') :
    Becomes ip n (resetEttNeigh x) n' := by
  have hremoved : Becomes ip n x (n.removeTimer ip ip noTos .sendEtt) := (Becomes.refl hx).same rfl
  have hreset : Becomes ip n (resetEttNeigh x)
      ((n.removeTimer ip ip noTos .sendEtt).modifyNeigh ip resetEttNeigh) := hremoved.modify (by intro; rfl)
  exact hreset.same (steady_genRerr h).neighs

/-- What becomes of the neighbour whose window is full. -/
inductive Estimated (ett : EttParams) (x : AodvNeigh) : AodvNeigh → Prop
  | reset : Estimated ett x (resetEttNeigh x)
  | renewed {x' : AodvNeigh} {reset : UInt8} (hett : x'.ett = renewEtt reset x.ett) : Estimated ett x x'
  | widened {x' : AodvNeigh} (hett : x'.ett = widenEtt x.ett)
      (hroom : ett.ettWindow ≠ UInt8.ofNat ettProbesMax) : Estimated ett x x'

theorem useEstimation_becomes {ett : EttParams} {recvDelay : UInt32} (hx : n.findAodvNeigh ip = some x)
    (h : n.useEstimation ip ett recvDelay = some n') :
    ∃ x', Becomes ip n x' n' ∧ Estimated ett x x' := by
  cases useEstimation_cases h with
  | again _ _ _ hreset => exact ⟨_, (becomes_resetEtt hx hreset).same (steady_sendEttInfo ip _ 0).neighs, .reset⟩
  | secondRound =>
    have hrenewed := (Becomes.refl hx).modify (f := updateEtt (renewEtt 1)) fun _ ↦ rfl
    exact ⟨_, hrenewed.same (steady_sendEttInfo ip _ 0).neighs, .renewed rfl⟩
  | widen hroom => exact ⟨_, (Becomes.refl hx).modify (by intro; rfl), .widened rfl hroom⟩
  | unusable _ _ hreset => exact ⟨_, becomes_resetEtt hx hreset, .reset⟩
  | @rated rate =>
    have hrenewed := ((Becomes.refl hx).modify (f := updateEtt (renewEtt 0)) fun _ ↦ rfl).modify
      (f := fun y ↦ { y with sendRate := rate }) fun _ ↦ rfl
    exact ⟨_, hrenewed.same (steady_sendEttInfo ip rate 0).neighs, .renewed rfl⟩

/-- A full window, which only the count keeps from being in order, is given up,
widened or begun anew. -/
theorem useEstimation_window {recvDelay : UInt32} (hx : n.findAodvNeigh ip = some x)
    (h : n.useEstimation ip x.ett recvDelay = some n') :
    ∃ x', Becomes ip n x' n' ∧ (EttWindow { x.ett with countRcv := 0 } →
      x.ett.countRcv = x.ett.ettWindow → EttWindow x'.ett) := by
  have hbegin : ettProbesMin ≤ (UInt8.ofNat ettProbesMin).toNat ∧
      (UInt8.ofNat ettProbesMin).toNat ≤ ettProbesMax ∧ (0 : UInt8) < UInt8.ofNat ettProbesMin := by
    decide
  obtain ⟨x', hx', hestimated⟩ := useEstimation_becomes hx h
  refine ⟨x', hx', fun he hfull ↦ ?_⟩
  cases hestimated with
  | reset => exact ettWindow_resetEttNeigh x
  | renewed hett =>
    rw [hett]
    exact ettWindow_of_init rfl hbegin.1 hbegin.2.1 hbegin.2.2
  | widened hett hlast =>
    rw [hett]
    have hmax : (UInt8.ofNat ettProbesMax).toNat = 10 := rfl
    have hleast : 3 ≤ x.ett.ettWindow.toNat := he.least
    have hlargest : x.ett.ettWindow.toNat ≤ 10 := he.largest
    have hroom : x.ett.ettWindow.toNat ≠ 10 := fun heq ↦
      hlast (UInt8.toNat_inj.mp (heq.trans hmax.symm))
    have hwider : (x.ett.ettWindow + 2).toNat = x.ett.ettWindow.toNat + 2 := by
      rw [UInt8.toNat_add]
      exact Nat.mod_eq_of_lt (by simp; omega)
    have hwindow : (if x.ett.ettWindow + 2 > UInt8.ofNat ettProbesMax then UInt8.ofNat ettProbesMax
        else x.ett.ettWindow + 2).toNat ≤ 10 ∧ x.ett.ettWindow.toNat <
        (if x.ett.ettWindow + 2 > UInt8.ofNat ettProbesMax then UInt8.ofNat ettProbesMax
        else x.ett.ettWindow + 2).toNat := by
      split
      · omega
      · next hfits =>
        have hle := UInt8.le_iff_toNat_le.mp (UInt8.not_lt.mp hfits)
        omega
    exact ⟨he.length, he.sorted, he.bounded, Nat.le_of_lt (Nat.lt_of_le_of_lt hleast hwindow.2),
      hwindow.1, UInt8.lt_iff_toNat_lt.mpr (hfull ▸ hwindow.2)⟩

theorem computeDelay_rest (e : EttParams) : (Node.computeDelay e).2 = e ∨
    (Node.computeDelay e).2 = { e with recvDelays := delayVectorInit } := by
  rw [Node.computeDelay]
  dsimp only
  split
  · exact .inl rfl
  · exact .inr rfl

theorem computeEstimation_window (hx : n.findAodvNeigh ip = some x)
    (h : n.computeEstimation ip = some n') :
    ∃ x', Becomes ip n x' n' ∧ (EttWindow x.ett → EttWindow x'.ett) := by
  obtain ⟨y, hy, h⟩ := Option.bind_eq_some_iff.mp h
  obtain rfl : x = y := Option.some.inj (hx.symm.trans hy)
  have hnext : EttWindow x.ett → (x.ett.countRcv + 1).toNat = x.ett.countRcv.toNat + 1 := by
    intro he
    have hlt := UInt8.lt_iff_toNat_lt.mp he.count
    have hlargest : x.ett.ettWindow.toNat ≤ 10 := he.largest
    rw [UInt8.toNat_add]
    exact Nat.mod_eq_of_lt (by simp; omega)
  have hcounted := (Becomes.refl hx).modify
    (f := updateEtt fun _ ↦ { x.ett with countRcv := x.ett.countRcv + 1 }) fun _ ↦ rfl
  dsimp only at h
  split at h
  · next hmore =>
    refine ⟨_, Option.some.inj h ▸ hcounted, fun he ↦ ?_⟩
    refine ⟨he.length, he.sorted, he.bounded, he.least, he.largest, UInt8.lt_iff_toNat_lt.mpr ?_⟩
    have hlt := UInt8.lt_iff_toNat_lt.mp he.count
    have hne : (x.ett.countRcv + 1).toNat ≠ x.ett.ettWindow.toNat := fun heq ↦
      hmore (UInt8.toNat_inj.mp heq)
    show (x.ett.countRcv + 1).toNat < x.ett.ettWindow.toNat
    rw [hnext he] at hne ⊢
    omega
  · next hfull =>
    have hfull := not_ne_iff.mp hfull
    generalize hett : (Node.computeDelay { x.ett with countRcv := x.ett.countRcv + 1 }).2 = ett at h
    have hmeasured := hcounted.modify (f := updateEtt fun _ ↦ ett) fun _ ↦ rfl
    obtain ⟨x', hbecomes, hwindow⟩ := useEstimation_window hmeasured.found h
    refine ⟨x', hmeasured.trans hbecomes, fun he ↦ ?_⟩
    have hrest := computeDelay_rest { x.ett with countRcv := x.ett.countRcv + 1 }
    rw [hett] at hrest
    have hleast : ∀ w : UInt8, ettProbesMin ≤ w.toNat → (0 : UInt8) < w := fun w hw ↦
      UInt8.lt_iff_toNat_lt.mpr (Nat.lt_of_lt_of_le (by decide : 0 < ettProbesMin) hw)
    rcases hrest with rfl | rfl
    · exact hwindow ⟨he.length, he.sorted, he.bounded, he.least, he.largest, hleast _ he.least⟩ hfull
    · exact hwindow (ettWindow_of_init rfl he.least he.largest (hleast _ he.least)) hfull

theorem becomes_updateNeighLifetime (hx : n.findAodvNeigh ip = some x) :
    ∃ x', Becomes ip n x' (n.updateNeighLifetime ip) ∧ x'.ett = x.ett := by
  let f (x : AodvNeigh) : AodvNeigh :=
    { x with lifetime := helloInterval * (1 + allowedHelloLoss) + 20 + n.now }
  have hlifetime : Becomes ip n (f x) (n.modifyNeigh ip f) := (Becomes.refl hx).modify fun _ ↦ rfl
  exact ⟨f x, hlifetime.same rfl, rfl⟩

theorem recvLprobe_window {t : Task} {m : LProbe} (hx : n.findAodvNeigh t.srcIp = some x)
    (h : n.recvLprobe t m = some n') :
    ∃ x', Becomes t.srcIp n x' n' ∧ (EttWindow x.ett → EttWindow x'.ett) := by
  rw [recvLprobe, hx] at h
  obtain ⟨x₁, hx₁, hett⟩ := becomes_updateNeighLifetime hx
  dsimp only at h
  split at h
  · obtain rfl := Option.some.inj h
    exact ⟨x₁, hx₁, fun he ↦ hett ▸ he⟩
  obtain ⟨n₁, hn₁, rfl⟩ := Option.map_eq_some_iff.mp h
  have hreloaded : Becomes t.srcIp n x₁
      ((n.updateNeighLifetime t.srcIp).reloadEttCleanup t.srcIp) := hx₁.same rfl
  have hmeasured := hreloaded.modify
    (f := fun x ↦ { x with ett := { x.ett with measDelay := probeDelay x.ett m }, recvRate := m.myRate })
    fun _ ↦ rfl
  split at hn₁
  · have hadded := hmeasured.modify (f := updateEtt (Node.delayVectorAdd m.lastMeasDelay)) fun _ ↦ rfl
    obtain ⟨x', hx', hwindow⟩ := computeEstimation_window hadded.found hn₁
    refine ⟨_, (hadded.trans hx').modify (by intro; rfl), fun he ↦ ?_⟩
    have hstart : EttWindow { x₁.ett with measDelay := probeDelay x₁.ett m } :=
      (hett ▸ he : EttWindow x₁.ett).of_eq rfl rfl rfl
    exact (hwindow (hstart.delayVectorAdd _)).of_eq rfl rfl rfl
  · obtain rfl := Option.some.inj hn₁
    refine ⟨_, hmeasured.modify (by intro; rfl), fun he ↦ ?_⟩
    exact (hett ▸ he : EttWindow x₁.ett).of_eq rfl rfl rfl

theorem recvEttInfo_window {t : Task} {m : EttInfo} (hx : n.findAodvNeigh t.srcIp = some x)
    (h : n.recvEttInfo t m = some n') :
    ∃ x', Becomes t.srcIp n x' n' ∧ (EttWindow x.ett → EttWindow x'.ett) := by
  rw [recvEttInfo, hx] at h
  obtain ⟨x₁, hx₁, hett⟩ := becomes_updateNeighLifetime hx
  obtain ⟨n₁, hn₁, rfl⟩ := Option.map_eq_some_iff.mp h
  have hrated := hx₁.modify (f := fun x ↦ { x with recvRate := m.myRate }) fun _ ↦ rfl
  dsimp only at hn₁
  split at hn₁
  · have hfixed := hrated.modify (f := updateEtt fun e ↦ { e with fixedRate := 1 }) fun _ ↦ rfl
    generalize hn₂ : Node.modifyNeigh t.srcIp (updateEtt fun e ↦ { e with fixedRate := 1 }) _ = n₂
      at hfixed hn₁
    have hreloaded : Becomes t.srcIp n _ (n₂.reloadEttCleanup t.srcIp) := hfixed.same rfl
    have hadded := hreloaded.modify (f := updateEtt (Node.delayVectorAdd m.lastMeasDelay)) fun _ ↦ rfl
    have hstart : EttWindow x.ett → EttWindow (Node.delayVectorAdd m.lastMeasDelay
        { x₁.ett with fixedRate := 1 }) := fun he ↦
      have hfixed : EttWindow { x₁.ett with fixedRate := 1 } :=
        (hett ▸ he : EttWindow x₁.ett).of_eq rfl rfl rfl
      hfixed.delayVectorAdd _
    split at hn₁
    · obtain ⟨x', hx', hwindow⟩ := computeEstimation_window hadded.found hn₁
      refine ⟨_, (hadded.trans hx').modify (by intro; rfl), fun he ↦ ?_⟩
      exact (hwindow (hstart he)).of_eq rfl rfl rfl
    · obtain rfl := Option.some.inj hn₁
      exact ⟨_, hadded.modify (by intro; rfl), fun he ↦ (hstart he).of_eq rfl rfl rfl⟩
  · obtain rfl := Option.some.inj hn₁
    refine ⟨_, hrated.modify (by intro; rfl), fun he ↦ ?_⟩
    exact (hett ▸ he : EttWindow x₁.ett).of_eq rfl rfl rfl

theorem createAodvNeigh_window (h : n.createAodvNeigh ip = some (true, n')) :
    n'.findAodvNeigh ip = some (newAodvNeigh n.cfg ip) := by
  rcases createAodvNeigh_spec h with ⟨hok, -⟩ | ⟨-, hmeets⟩
  · cases hok
  · rw [findAodvNeigh, hmeets.neigh]
    refine OrderedList.findWhile_insertBy ?_ ?_ ?_ _
    · intro y hy
      have hlt : y.ip < ip := of_decide_eq_true hy
      exact ⟨decide_eq_true (UInt32.le_of_lt hlt), beq_false_of_ne (UInt32.ne_of_lt hlt)⟩
    · exact decide_eq_true (UInt32.le_refl ip)
    · exact beq_self_eq_true ip

end Handlers

section Runs

variable {ip : Ip} {n n' : Node} {x x' : AodvNeigh}

/-- A step about one neighbour carries the window of every neighbour on. -/
theorem window_of_becomes {ip' : Ip} {y y' : AodvNeigh} (hy : n.findAodvNeigh ip' = some y)
    (h : Becomes ip' n y' n') (hwindow : EttWindow y.ett → EttWindow y'.ett)
    (hn : ∀ x, n.findAodvNeigh ip = some x → EttWindow x.ett)
    (hx' : n'.findAodvNeigh ip = some x') : EttWindow x'.ett := by
  by_cases hip : ip = ip'
  · subst hip
    obtain rfl := Option.some.inj (h.found.symm.trans hx')
    exact hwindow (hn y hy)
  · rw [h.others ip hip] at hx'
    exact hn x' hx'

theorem ProbeRun.window (h : ProbeRun ip n) (hx : n.findAodvNeigh ip = some x) :
    EttWindow x.ett := by
  induction h generalizing x with
  | @create n n' h =>
    obtain rfl := Option.some.inj ((createAodvNeigh_window h).symm.trans hx)
    exact ettWindow_resetEttNeigh (newAodvNeigh n.cfg ip)
  | @lprobe n n' t m hn h ih =>
    cases hy : n.findAodvNeigh t.srcIp with
    | none =>
      rw [recvLprobe, hy] at h
      exact ih (Option.some.inj h ▸ hx)
    | some y =>
      obtain ⟨y', hbecomes, hwindow⟩ := recvLprobe_window hy h
      exact window_of_becomes hy hbecomes hwindow (fun _ ↦ ih) hx
  | @ettInfo n n' t m hn h ih =>
    cases hy : n.findAodvNeigh t.srcIp with
    | none =>
      rw [recvEttInfo, hy] at h
      exact ih (Option.some.inj h ▸ hx)
    | some y =>
      obtain ⟨y', hbecomes, hwindow⟩ := recvEttInfo_window hy h
      exact window_of_becomes hy hbecomes hwindow (fun _ ↦ ih) hx
  | @reset n n' ip' hn hip' h ih =>
    obtain ⟨y, hy⟩ := Option.isSome_iff_exists.mp hip'
    exact window_of_becomes hy (becomes_resetEtt hy h) (fun _ ↦ ettWindow_resetEttNeigh y)
      (fun _ ↦ ih) hx
  | @between n n' hn h ih =>
    obtain ⟨y, hy, hdelays, hsize, hcount⟩ := h x hx
    exact (ih hy).of_eq hdelays hsize hcount

/-- However the messages about it come, the estimation of a neighbour stays in
order, and the next message about it reads and writes inside the array and
computes without wrapping. -/
theorem estimation_window (h : ProbeRun ip n) (hx : n.findAodvNeigh ip = some x) :
    EttWindow x.ett ∧ ∀ delay : UInt32,
      DelayVector.delayVectorAdd delay x.ett = some (Node.delayVectorAdd delay x.ett) ∧
      DelayVector.computeDelay
          { Node.delayVectorAdd delay x.ett with countRcv := x.ett.countRcv + 1 } =
        some (Node.computeDelay
          { Node.delayVectorAdd delay x.ett with countRcv := x.ett.countRcv + 1 }) :=
  ⟨h.window hx, fun delay ↦ (h.window hx).checked delay _⟩

/-- A station that has met a neighbour, and has a delay from it. -/
def probedStation : Node :=
  let met := (station.createAodvNeigh 0x0201a8c0).getD (false, station)
  (met.2.recvLprobe { createTask .recvLEtt 0 with srcIp := 0x0201a8c0 }
    ⟨0, 0, 0x0101a8c0, 0x0201a8c0, 0, 0, 900⟩).getD station

theorem probeRun_probedStation : ProbeRun 0x0201a8c0 probedStation := by
  have hmet : ∃ n, station.createAodvNeigh 0x0201a8c0 = some (true, n) := by
    have hok : (station.createAodvNeigh 0x0201a8c0).map Prod.fst = some true := by decide +kernel
    obtain ⟨⟨ok, n⟩, hn, rfl⟩ := Option.map_eq_some_iff.mp hok
    exact ⟨n, hn⟩
  have hprobe : (((station.createAodvNeigh 0x0201a8c0).getD (false, station)).2.recvLprobe
      { createTask .recvLEtt 0 with srcIp := 0x0201a8c0 }
      ⟨0, 0, 0x0101a8c0, 0x0201a8c0, 0, 0, 900⟩).isSome = true := by decide +kernel
  obtain ⟨n, hn⟩ := hmet
  obtain ⟨n', hn'⟩ := Option.isSome_iff_exists.mp hprobe
  rw [probedStation]
  simp only [hn', Option.getD_some]
  rw [hn, Option.getD_some] at hn'
  exact (ProbeRun.create hn).lprobe hn'

theorem estimation_window_probed : ∃ x, probedStation.findAodvNeigh 0x0201a8c0 = some x ∧
    x.ett.countRcv = 1 ∧ x.ett.recvDelays.head? = some 900 ∧ EttWindow x.ett := by
  have hfound : (probedStation.findAodvNeigh 0x0201a8c0).map
      (fun x ↦ (x.ett.countRcv, x.ett.recvDelays.head?)) = some (1, some 900) := by
    decide +kernel
  obtain ⟨x, hx, hfields⟩ := Option.map_eq_some_iff.mp hfound
  obtain ⟨hcount, hhead⟩ := Prod.mk.inj hfields
  exact ⟨x, hx, hcount, hhead, (estimation_window probeRun_probedStation hx).1⟩

end Runs

end Fbaodv.Proofs.DelayWindow
