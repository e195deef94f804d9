import Fbaodv.Proofs.NeighActs
import Fbaodv.Proofs.NeighLoss

namespace Fbaodv.Proofs.NeighTables

open Fbaodv.Model Fbaodv.Model.Node Fbaodv.Foundation Fbaodv.Foundation.OrderedList
open Fbaodv.Proofs.Background Fbaodv.Proofs.NodeRun Fbaodv.Proofs.Upkeep Fbaodv.Proofs.NeighActs
open Fbaodv.Proofs.PacketDiscovery Fbaodv.Proofs.NeighLoss

/-- The keys by which the two lists are sorted. -/
def neighKey (x : AodvNeigh) : ℕ := x.ip.toNat

def neigh2hKey (y : AodvNeigh2h) : ℕ := y.ip.toNat

/-- What holds of the neighbour tables of every node at any time. -/
structure TablesOrdered (n : Node) : Prop where
  neigh : StrictSorted neighKey n.aodvNeighList
  neigh2h : StrictSorted neigh2hKey n.aodvNeighList2h
  disjoint : ∀ x ∈ n.aodvNeighList, ∀ y ∈ n.aodvNeighList2h, x.ip ≠ y.ip
  meshIp : ∀ y ∈ n.aodvNeighList2h, y.ip ≠ n.cfg.gMeshIp

variable {n n' : Node} {t : Task}

theorem TablesOrdered.find_iff (hn : TablesOrdered n) {ip : Ip} {x : AodvNeigh} :
    n.findAodvNeigh ip = some x ↔ x ∈ n.aodvNeighList ∧ x.ip = ip := by
  refine (hn.neigh.findWhile_eq_some (k := ip.toNat) (fun a ↦ ?_) fun a ↦ ?_).trans ?_
  · simp [neighKey, UInt32.le_iff_toNat_le]
  · simp [neighKey, UInt32.toNat_inj]
  · simp only [neighKey, UInt32.toNat_inj]

theorem TablesOrdered.find2h_iff (hn : TablesOrdered n) {ip : Ip} {y : AodvNeigh2h} :
    n.findAodvNeigh2h ip = some y ↔ y ∈ n.aodvNeighList2h ∧ y.ip = ip := by
  refine (hn.neigh2h.findWhile_eq_some (k := ip.toNat) (fun a ↦ ?_) fun a ↦ ?_).trans ?_
  · simp [neigh2hKey, UInt32.le_iff_toNat_le]
  · simp [neigh2hKey, UInt32.toNat_inj]
  · simp only [neigh2hKey, UInt32.toNat_inj]

theorem TablesOrdered.ip_ne_of_find (hn : TablesOrdered n) {ip : Ip} (h : n.findAodvNeigh ip = none)
    {x : AodvNeigh} (hx : x ∈ n.aodvNeighList) : x.ip ≠ ip := by
  intro hip
  have := hn.find_iff.mpr ⟨hx, hip⟩
  simp [h] at this

theorem TablesOrdered.ip_ne_of_find2h (hn : TablesOrdered n) {ip : Ip} (h : n.findAodvNeigh2h ip = none)
    {y : AodvNeigh2h} (hy : y ∈ n.aodvNeighList2h) : y.ip ≠ ip := by
  intro hip
  have := hn.find2h_iff.mpr ⟨hy, hip⟩
  simp [h] at this

theorem TablesOrdered.of_ips (hn : TablesOrdered n) (hcfg : n'.cfg = n.cfg)
    (hneigh : n'.aodvNeighList.map AodvNeigh.ip = n.aodvNeighList.map AodvNeigh.ip)
    (hneigh2h : n'.aodvNeighList2h.map AodvNeigh2h.ip = n.aodvNeighList2h.map AodvNeigh2h.ip) :
    TablesOrdered n' where
  neigh := by
    refine hn.neigh.of_map ?_
    have := congrArg (List.map UInt32.toNat) hneigh
    rwa [List.map_map, List.map_map] at this
  neigh2h := by
    refine hn.neigh2h.of_map ?_
    have := congrArg (List.map UInt32.toNat) hneigh2h
    rwa [List.map_map, List.map_map] at this
  disjoint := by
    intro x' hx' y' hy'
    have hx : x'.ip ∈ n.aodvNeighList.map AodvNeigh.ip := hneigh ▸ List.mem_map_of_mem hx'
    have hy : y'.ip ∈ n.aodvNeighList2h.map AodvNeigh2h.ip := hneigh2h ▸ List.mem_map_of_mem hy'
    obtain ⟨x, hx, hxip⟩ := List.mem_map.mp hx
    obtain ⟨y, hy, hyip⟩ := List.mem_map.mp hy
    rw [← hxip, ← hyip]
    exact hn.disjoint x hx y hy
  meshIp := by
    intro y' hy'
    have hy : y'.ip ∈ n.aodvNeighList2h.map AodvNeigh2h.ip := hneigh2h ▸ List.mem_map_of_mem hy'
    obtain ⟨y, hy, hyip⟩ := List.mem_map.mp hy
    rw [hcfg, ← hyip]
    exact hn.meshIp y hy

theorem TablesOrdered.sublist (hn : TablesOrdered n) (hcfg : n'.cfg = n.cfg)
    (hneigh : n'.aodvNeighList.Sublist n.aodvNeighList)
    (hneigh2h : n'.aodvNeighList2h.Sublist n.aodvNeighList2h) : TablesOrdered n' where
  neigh := hn.neigh.sublist hneigh
  neigh2h := hn.neigh2h.sublist hneigh2h
  disjoint := fun x hx y hy ↦ hn.disjoint x (hneigh.subset hx) y (hneigh2h.subset hy)
  meshIp := fun y hy ↦ hcfg ▸ hn.meshIp y (hneigh2h.subset hy)

theorem TablesOrdered.lists (hn : TablesOrdered n) (hcfg : n'.cfg = n.cfg)
    (hneigh : n'.aodvNeighList = n.aodvNeighList) (hneigh2h : n'.aodvNeighList2h = n.aodvNeighList2h) :
    TablesOrdered n' :=
  hn.sublist hcfg (hneigh ▸ List.Sublist.refl _) (hneigh2h ▸ List.Sublist.refl _)

theorem TablesOrdered.modifyNeigh (hn : TablesOrdered n) (ip : Ip) {f : AodvNeigh → AodvNeigh}
    (hf : ∀ x, (f x).ip = x.ip) : TablesOrdered (n.modifyNeigh ip f) :=
  hn.of_ips rfl (map_modifyFirst hf _ _) rfl

theorem TablesOrdered.modifyNeigh2h (hn : TablesOrdered n) (ip : Ip) {f : AodvNeigh2h → AodvNeigh2h}
    (hf : ∀ y, (f y).ip = y.ip) : TablesOrdered (n.modifyNeigh2h ip f) :=
  hn.of_ips rfl rfl (map_modifyFirst hf _ _)

theorem TablesOrdered.meets (hn : TablesOrdered n) {ip : Ip} (hnone : n.findAodvNeigh2h ip = none)
    (h : MeetsNeigh ip n n') : TablesOrdered n' where
  neigh := by
    rw [h.neigh]
    refine hn.neigh.insertBy (fun b _ ↦ ?_) fun b hb ↦ ?_
    · simp [neighKey, newAodvNeigh, UInt32.lt_iff_toNat_lt]
    · refine hn.neigh.sorted.key_ne_of_head? (fun a ↦ ?_) (fun a ↦ ?_) h.absent hb
      · simp [neighKey, newAodvNeigh, UInt32.lt_iff_toNat_lt]
      · simp [neighKey, newAodvNeigh, UInt32.toNat_inj]
  neigh2h := h.neigh2h ▸ hn.neigh2h
  disjoint := by
    intro x hx y hy
    rw [h.neigh] at hx
    rw [h.neigh2h] at hy
    rcases mem_insertBy.mp hx with rfl | hx
    · exact (hn.ip_ne_of_find2h hnone hy).symm
    · exact hn.disjoint x hx y hy
  meshIp := by
    rw [h.neigh2h, h.cfg]
    exact hn.meshIp

theorem TablesOrdered.deleteAodvNeigh2h (hn : TablesOrdered n) (ip : Ip) :
    TablesOrdered (n.deleteAodvNeigh2h ip) ∧ (n.deleteAodvNeigh2h ip).findAodvNeigh2h ip = none := by
  have hne : ∀ n₁ : Node, TablesOrdered n₁ → (∀ y ∈ n₁.aodvNeighList2h, y.ip ≠ ip) →
      n₁.findAodvNeigh2h ip = none := fun n₁ hn₁ h ↦
    Option.eq_none_iff_forall_ne_some.mpr fun y hy ↦
      h y (hn₁.find2h_iff.mp hy).1 (hn₁.find2h_iff.mp hy).2
  unfold Node.deleteAodvNeigh2h
  split
  · have hn' : TablesOrdered ({ n with
        aodvNeighList2h := n.aodvNeighList2h.eraseP fun y ↦ y.ip == ip } : Node).updateTimers :=
      hn.sublist rfl (List.Sublist.refl _) List.eraseP_sublist
    refine ⟨hn', hne _ hn' fun y hy hip ↦ ?_⟩
    refine hn.neigh2h.key_ne_of_mem_eraseP (k := ip.toNat) (fun a ↦ ?_) hy (congrArg UInt32.toNat hip)
    simp [neigh2hKey, UInt32.toNat_inj]
  · next hany => exact ⟨hn, hne n hn fun y hy hip ↦ hany (List.any_eq_true.mpr ⟨y, hy, by simp [hip]⟩)⟩

theorem TablesOrdered.takeNeigh2h (hn : TablesOrdered n) (ip : Ip) :
    TablesOrdered (n.takeNeigh2h ip).2.2 ∧ (n.takeNeigh2h ip).2.2.findAodvNeigh2h ip = none := by
  unfold Node.takeNeigh2h
  split
  · next y hy =>
    have hip : y.ip = ip := (hn.find2h_iff.mp hy).2
    rw [← hip]
    exact hn.deleteAodvNeigh2h y.ip
  · next hnone => exact ⟨hn, hnone⟩

theorem TablesOrdered.createAodvNeigh2h (hn : TablesOrdered n) {ip : Ip} (hip : ip ≠ n.cfg.gMeshIp)
    (hnone : n.findAodvNeigh ip = none) : TablesOrdered (n.createAodvNeigh2h ip).2 := by
  unfold Node.createAodvNeigh2h
  dsimp only
  split
  · exact hn.lists rfl rfl rfl
  split
  · exact hn.lists rfl rfl rfl
  next habsent =>
  have habsent : ((n.aodvNeighList2h.dropWhile fun y ↦ y.ip < ip).head?.any fun y ↦ y.ip == ip) = false :=
    eq_false_of_ne_true habsent
  refine ⟨hn.neigh, ?_, ?_, ?_⟩
  · refine hn.neigh2h.insertBy (fun b _ ↦ ?_) fun b hb ↦ ?_
    · simp [neigh2hKey, UInt32.lt_iff_toNat_lt]
    · refine hn.neigh2h.sorted.key_ne_of_head? (fun a ↦ ?_) (fun a ↦ ?_) habsent hb
      · simp [neigh2hKey, UInt32.lt_iff_toNat_lt]
      · simp [neigh2hKey, UInt32.toNat_inj]
  · intro x hx y hy
    rcases mem_insertBy.mp hy with rfl | hy
    · exact hn.ip_ne_of_find hnone hx
    · exact hn.disjoint x hx y hy
  · intro y hy
    rcases mem_insertBy.mp hy with rfl | hy
    · exact hip
    · exact hn.meshIp y hy

theorem TablesOrdered.refreshNeigh2h (hn : TablesOrdered n) {ip : Ip} (hip : ip ≠ n.cfg.gMeshIp)
    (hnone : n.findAodvNeigh ip = none) : TablesOrdered (n.refreshNeigh2h ip) := by
  unfold Node.refreshNeigh2h
  split
  · exact hn.createAodvNeigh2h hip hnone
  · refine TablesOrdered.modifyNeigh2h ?_ ip fun _ ↦ rfl
    exact hn.lists rfl rfl rfl

theorem TablesOrdered.act {n₀ : Node} (hn : TablesOrdered n) (h : NeighAct n₀ t n n') : TablesOrdered n' := by
  cases h with
  | same h => exact hn.of_ips h.cfg (Pointwise.map_eq h.neigh fun htouch ↦ htouch.ip) (by rw [h.neigh2h])
  | refresh =>
    refine TablesOrdered.modifyNeigh ?_ t.srcIp fun _ ↦ rfl
    exact hn.lists rfl rfl rfl
  | arm | rearm | stop | probe | renew => exact hn.lists rfl rfl rfl
  | meet _ _ _ h =>
    obtain ⟨hn₁, hnone⟩ := hn.takeNeigh2h t.srcIp
    rcases createAodvNeigh_spec h with ⟨-, h⟩ | ⟨-, h⟩
    · exact hn₁.of_ips h.cfg (Pointwise.map_eq h.neigh fun htouch ↦ htouch.ip) (by rw [h.neigh2h])
    · exact hn₁.meets hnone h
  | lose =>
    obtain ⟨hcfg, hneigh, hneigh2h⟩ := unlinkNeigh_frame t.srcIp n
    refine hn.sublist hcfg ?_ (hneigh2h ▸ List.Sublist.refl _)
    rw [hneigh]
    exact List.eraseP_sublist
  | lose2h => exact (hn.deleteAodvNeigh2h t.srcIp).1
  | takeLoad => exact hn.modifyNeigh _ fun _ ↦ rfl
  | ownLoad => exact hn.modifyNeigh _ (updateNeighLoad_ip _ _)
  | extLoad => exact hn.modifyNeigh _ (updateNeighLoad_ip _ _)
  | refresh2h _ _ hip hnone => exact hn.refreshNeigh2h hip hnone
  | extLoad2h => exact hn.modifyNeigh2h _ (updateNeighLoad2h_ip _ _)
  | neightx => exact hn.modifyNeigh _ (updateNeightx_ip _)

theorem TablesOrdered.acts {n₀ : Node} (hn : TablesOrdered n) (h : Acts n₀ t n n') : TablesOrdered n' := by
  induction h with
  | refl => exact hn
  | tail _ hact ih => exact ih.act hact

theorem step_tablesOrdered {e : Event} (hn : TablesOrdered n) (h : n.step e = some n') :
    TablesOrdered n' := by
  cases step_neigh h with
  | wait ms => exact hn.lists rfl rfl rfl
  | idle h => exact hn.lists h.cfg h.neigh h.neigh2h
  | signal =>
    obtain ⟨hcfg, -, hneigh, hneigh2h, -⟩ := signal_neigh n
    exact hn.lists hcfg hneigh hneigh2h
  | @thread t tasks _ hpop h =>
    have hpopped : TablesOrdered { n with tasks := tasks } := hn.lists rfl rfl rfl
    exact hpopped.acts h

theorem init_neighLists (cfg : Config) (env : Environment) :
    (Node.init cfg env).aodvNeighList = [] ∧ (Node.init cfg env).aodvNeighList2h = [] := by
  unfold Node.init
  dsimp only
  split <;> exact ⟨rfl, rfl⟩

theorem init_tablesOrdered (cfg : Config) (env : Environment) : TablesOrdered (Node.init cfg env) := by
  have hlists := init_neighLists cfg env
  refine ⟨?_, ?_, ?_, ?_⟩
  · rw [hlists.1]
    exact .nil
  · rw [hlists.2]
    exact .nil
  · simp [hlists.1]
  · simp [hlists.2]

theorem reach_tablesOrdered {I : Config → Environment → Prop} {C : Node → Event → Prop}
    (h : Reach I C n) : TablesOrdered n :=
  h.induct (fun cfg env _ ↦ init_tablesOrdered cfg env) fun _ _ _ hn _ hs ↦ step_tablesOrdered hn hs

/-- In every reachable state the two neighbour lists are increasing and share no
address, the node itself is no 2-hop neighbour, and the two searches return
exactly what is listed. -/
theorem neigh_tables_disjoint_ordered (hn : Reachable n) :
    n.aodvNeighList.Pairwise (fun x x' ↦ x.ip < x'.ip) ∧
      n.aodvNeighList2h.Pairwise (fun y y' ↦ y.ip < y'.ip) ∧
      (∀ x ∈ n.aodvNeighList, ∀ y ∈ n.aodvNeighList2h, x.ip ≠ y.ip) ∧
      (∀ y ∈ n.aodvNeighList2h, y.ip ≠ n.cfg.gMeshIp) ∧
      (∀ ip x, n.findAodvNeigh ip = some x ↔ x ∈ n.aodvNeighList ∧ x.ip = ip) ∧
      (∀ ip y, n.findAodvNeigh2h ip = some y ↔ y ∈ n.aodvNeighList2h ∧ y.ip = ip) := by
  have htables := reach_tablesOrdered hn
  refine ⟨?_, ?_, htables.disjoint, htables.meshIp, fun _ _ ↦ htables.find_iff,
    fun _ _ ↦ htables.find2h_iff⟩
  · exact htables.neigh.imp fun h ↦ UInt32.lt_iff_toNat_lt.mpr h
  · exact htables.neigh2h.imp fun h ↦ UInt32.lt_iff_toNat_lt.mpr h

/-- A HELLO from `saddr` that names the nodes `ips`, and its handling. -/
def helloFrom (saddr : Ip) (ips : List Ip) : List Event :=
  [.input (heard saddr (.hello ⟨UInt8.ofNat ips.length, 0, 1, ips.map fun ip ↦ ⟨ip, 0, 0, 0⟩⟩)), .thread]

/-- Two neighbours name four more nodes and this one, and one of the four then says
HELLO itself. -/
def crowdGathers : List Event :=
  helloFrom 0x0501a8c0 [0x0901a8c0, 0x0401a8c0, 0x0101a8c0] ++
    helloFrom 0x0201a8c0 [0x0701a8c0, 0x0501a8c0, 0x0301a8c0, 0x0401a8c0] ++ helloFrom 0x0701a8c0 []

/-- A station that counts the load of the nodes around it, among many. -/
def crowdedStation : Option Node :=
  runs crowdGathers (Node.init { station.cfg with gRoutingMetric := .wcim }
    { now := 0
      routeMemory := []
      netlink := []
      routeJunk := []
      timerMemory := []
      packetMemory := []
      maxlen := 100
      memory := []
      rand := []
      junk := [] })

theorem neigh_tables_disjoint_ordered_met : ∃ n, crowdedStation = some n ∧
    n.aodvNeighList.map AodvNeigh.ip = [0x0201a8c0, 0x0501a8c0, 0x0701a8c0] ∧
    n.aodvNeighList2h.map AodvNeigh2h.ip = [0x0301a8c0, 0x0401a8c0, 0x0901a8c0] ∧
    (∀ x ∈ n.aodvNeighList, ∀ y ∈ n.aodvNeighList2h, x.ip ≠ y.ip) ∧
    (∀ y ∈ n.aodvNeighList2h, y.ip ≠ n.cfg.gMeshIp) ∧
    (∀ ip x, n.findAodvNeigh ip = some x ↔ x ∈ n.aodvNeighList ∧ x.ip = ip) ∧
    (∀ ip y, n.findAodvNeigh2h ip = some y ↔ y ∈ n.aodvNeighList2h ∧ y.ip = ip) := by
  have hrun : crowdedStation.map (fun n ↦
      (n.aodvNeighList.map AodvNeigh.ip, n.aodvNeighList2h.map AodvNeigh2h.ip)) =
      some ([0x0201a8c0, 0x0501a8c0, 0x0701a8c0], [0x0301a8c0, 0x0401a8c0, 0x0901a8c0]) := by
    decide +kernel
  obtain ⟨n, hn, hlists⟩ := Option.map_eq_some_iff.mp hrun
  obtain ⟨hneigh, hneigh2h⟩ := Prod.mk.inj hlists
  have hreach : Reachable n := Reach.of_runs (.init trivial) hn
  obtain ⟨-, -, hdisjoint, hself, hfind, hfind2h⟩ := neigh_tables_disjoint_ordered hreach
  exact ⟨n, hn, hneigh, hneigh2h, hdisjoint, hself, hfind, hfind2h⟩

end Fbaodv.Proofs.NeighTables
