import Fbaodv.Proofs.PacketDiscovery
import Fbaodv.Proofs.RoutingInvariant

namespace Fbaodv.Proofs.RreqUpdate

open Fbaodv.Foundation Fbaodv.Model Routing RouteFrame RoutingInvariant PacketDiscovery

/-- The arguments of one call of `rreq_aodv_route`. -/
structure Heard where
  srcIp : Ip
  dstIp : Ip
  tos : UInt8
  nextHop : Ip
  sendRate : UInt16
  hops : UInt8
  dstId : UInt32
  pathMetric : UInt32

def Heard.call (c : Heard) (cfg : Config) (now : ℕ) (r : Routing) : Option (Bool × Routing) :=
  r.rreqAodvRoute cfg now c.srcIp c.dstIp c.tos c.nextHop c.sendRate c.hops c.dstId c.pathMetric

/-- Entries have addresses of their own, and the next one is unused. -/
structure Addressed (r : Routing) : Prop where
  distinct : (r.table.map AodvRoute.ptr).Nodup
  fresh : ∀ e ∈ r.table, e.ptr < r.heap

/-- `e'` is not behind `e`: a larger number, or the same one and no larger
metric. -/
def NotBehind (e e' : AodvRoute) : Prop :=
  e.dstId < e'.dstId ∨ e.dstId = e'.dstId ∧ e'.pathMetric ≤ e.pathMetric

/-- What is heard is newer than the entry that the table has for it, or as new
and better. -/
def Improves (c : Heard) (r : Routing) : Prop :=
  ∀ e, r.findAodvRoute c.srcIp c.dstIp c.tos = some e →
    e.dstId < c.dstId ∨ c.dstId = e.dstId ∧ c.pathMetric < e.pathMetric

/-- `insert_src_list_entry` fails: no memory, no free route table, or a rule
that the kernel refuses. -/
def SourceRefused (ip : Ip) (r : Routing) : Prop :=
  r.kmalloc.next = false ∨
    ip ≠ gNullIp ∧ (maxRouteTables < r.findFirstRttable ∨ r.netlink.next = false)

/-- The calls that `rreq_aodv_route` makes for the route succeed. -/
def CallsSucceed (c : Heard) (cfg : Config) (r : Routing) : Prop :=
  match r.findAodvRoute c.srcIp c.dstIp c.tos with
  | none =>
    r.kmalloc.next = true ∧
      (r.findSrcListEntry c.srcIp = none →
        ¬SourceRefused c.srcIp { r with kmalloc := r.kmalloc.rest })
  | some e => e.state ≠ .invalid → (r.delRoute cfg e.srcIp e.kernelRoute).1 = true

/-- There is memory for a new entry, but its source does not come into the
source list. -/
structure Strands (c : Heard) (r : Routing) : Prop where
  unknown : r.findAodvRoute c.srcIp c.dstIp c.tos = none
  memory : r.kmalloc.next = true
  unlisted : r.findSrcListEntry c.srcIp = none
  refused : SourceRefused c.srcIp { r with kmalloc := r.kmalloc.rest }

/-- `compute_load` divides by zero. -/
def Divides (c : Heard) (cfg : Config) : Prop :=
  cfg.gRoutingMetric = .wcim ∧ computeLoad c.sendRate c.tos = none

/-- The entry holds what was heard. -/
structure Holds (c : Heard) (e : AodvRoute) : Prop where
  dstId : e.dstId = c.dstId
  pathMetric : e.pathMetric = c.pathMetric
  numHops : e.numHops = c.hops
  nextHop : e.nextHop = c.nextHop
  state : e.state = .active

/-- The call is an atomic and monotone update. -/
structure AtomicUpdate (c : Heard) (cfg : Config) (now : ℕ) (r : Routing) : Prop where
  taken : ∀ r', c.call cfg now r = some (true, r') →
    Improves c r ∧ ∃ e, r'.findAodvRoute c.srcIp c.dstIp c.tos = some e ∧ Holds c e ∧
      (r'.table.filter fun x ↦ x.ptr ≠ e.ptr) = r.table.filter fun x ↦ x.ptr ≠ e.ptr
  takes : Improves c r → CallsSucceed c cfg r → ∃ r', c.call cfg now r = some (true, r')
  refused : ∀ r', c.call cfg now r = some (false, r') →
    r'.table = r.table ∧ r'.srcList = r.srcList
  monotone : ∀ ok r', c.call cfg now r = some (ok, r') →
    ∀ e ∈ r.table, ∃ e' ∈ r'.table, e'.ptr = e.ptr ∧ NotBehind e e'

variable {c : Heard} {cfg : Config} {now : ℕ} {r r' : Routing} {e : AodvRoute}

theorem rejects_eq_false_iff :
    e.rejects c.dstId c.pathMetric = false ↔
      e.dstId < c.dstId ∨ c.dstId = e.dstId ∧ c.pathMetric < e.pathMetric := by
  simp only [AodvRoute.rejects, Bool.or_eq_false_iff, decide_eq_false_iff_not, Bool.and_eq_false_iff,
    beq_eq_false_iff_ne, gt_iff_lt, ge_iff_le, UInt32.lt_iff_toNat_lt, UInt32.le_iff_toNat_le,
    ← UInt32.toNat_inj, ne_eq]
  omega

theorem insertSrcListEntry_cases (ip : Ip) :
    SourceRefused ip r ∧ (r.insertSrcListEntry cfg ip).1 = none ∧
        (r.insertSrcListEntry cfg ip).2.srcList = r.srcList ∨
      ¬SourceRefused ip r ∧ (r.insertSrcListEntry cfg ip).1 ≠ none := by
  have hfirst : ∀ o, findFirstRttable { r with kmalloc := o } = r.findFirstRttable := fun _ ↦ rfl
  simp only [SourceRefused, insertSrcListEntry, hfirst, rpdbRule]
  cases hmem : r.kmalloc.next with
  | false => simp
  | true =>
    by_cases hnull : ip = gNullIp
    · simp [hnull]
    · by_cases hfull : maxRouteTables < r.findFirstRttable
      · simp [hnull, hfull]
      · cases hrule : r.netlink.next <;> simp [hnull, hfull]

/-- The source list entry is missing only if it was and cannot be inserted. -/
theorem sourceEntry_cases (ip : Ip) :
    (r.findSrcListEntry ip = none ∧ SourceRefused ip r) ∧ (r.sourceEntry cfg ip).1 = none ∧
        (r.sourceEntry cfg ip).2.srcList = r.srcList ∨
      ¬(r.findSrcListEntry ip = none ∧ SourceRefused ip r) ∧ (r.sourceEntry cfg ip).1 ≠ none := by
  unfold Routing.sourceEntry
  cases hsrc : r.findSrcListEntry ip with
  | some s => simp
  | none => simpa using insertSrcListEntry_cases ip

theorem sourceEntry_table (ip : Ip) : (r.sourceEntry cfg ip).2.table = r.table :=
  (srcOnly_sourceEntry cfg ip r).table

theorem createAodvRoute_of_memory (h : r.kmalloc.next = true) :
    ∃ new r₀, r.createAodvRoute c.srcIp c.dstIp c.tos c.dstId = (some new, r₀) ∧ new.ptr = r.heap ∧
      (new.srcIp = c.srcIp ∧ new.dstIp = c.dstIp ∧ new.tos = c.tos) ∧
      r₀.table = OrderedList.insertBy (fun e ↦ e.dstIp < c.dstIp) new r.table ∧
      r₀.srcList = r.srcList ∧ r₀.kmalloc = r.kmalloc.rest ∧ r₀.netlink = r.netlink := by
  simp only [createAodvRoute, h]
  exact ⟨_, _, rfl, rfl, ⟨rfl, rfl, rfl⟩, rfl, rfl, rfl, rfl⟩

theorem sourceRefused_congr {ip : Ip} (hsrc : r'.srcList = r.srcList) (hmem : r'.kmalloc = r.kmalloc)
    (hnet : r'.netlink = r.netlink) : SourceRefused ip r' ↔ SourceRefused ip r := by
  simp only [SourceRefused, findFirstRttable, hsrc, hmem, hnet]

/-- The table with a new entry for what was heard. -/
structure Created (c : Heard) (r : Routing) (new : AodvRoute) (r' : Routing) : Prop where
  ptr : new.ptr = r.heap
  key : new.srcIp = c.srcIp ∧ new.dstIp = c.dstIp ∧ new.tos = c.tos
  table : r'.table = OrderedList.insertBy (fun e ↦ e.dstIp < c.dstIp) new r.table

theorem improves_of_none (h : r.findAodvRoute c.srcIp c.dstIp c.tos = none) : Improves c r := by
  intro e he
  rw [h] at he
  cases he

theorem improves_of_some (h : r.findAodvRoute c.srcIp c.dstIp c.tos = some e) :
    Improves c r ↔ e.rejects c.dstId c.pathMetric = false := by
  rw [rejects_eq_false_iff]
  constructor
  · intro himp
    exact himp e h
  · intro hnew e' he'
    rw [h] at he'
    cases he'
    exact hnew

/-- `rreqEntry` gives no entry: nothing has changed, or a new entry is left
behind. -/
theorem rreqEntry_none (h : r.rreqEntry cfg c.srcIp c.dstIp c.tos c.dstId c.pathMetric = (none, r')) :
    (r'.table = r.table ∧ r'.srcList = r.srcList ∧ ¬Strands c r ∧
        ¬(Improves c r ∧ CallsSucceed c cfg r)) ∨
      Strands c r ∧ ∃ new, Created c r new r' := by
  unfold Routing.rreqEntry at h
  cases hfind : r.findAodvRoute c.srcIp c.dstIp c.tos with
  | none =>
    simp only [hfind] at h
    cases hmem : r.kmalloc.next with
    | false =>
      simp only [createAodvRoute, hmem, Bool.not_false, if_true] at h
      obtain ⟨-, rfl⟩ := Prod.mk.inj h
      exact .inl ⟨rfl, rfl, fun hs ↦ by simp [hs.memory] at hmem, by simp [CallsSucceed, hfind, hmem]⟩
    | true =>
      obtain ⟨new, r₀, hnew, hptr, hkey, htable, hsrc, hrest, hnet⟩ :=
        createAodvRoute_of_memory (c := c) hmem
      have hsrc₁ := @sourceEntry_table cfg r₀ c.srcIp
      have hcases := @sourceEntry_cases cfg r₀ c.srcIp
      rcases hs : r₀.sourceEntry cfg c.srcIp with ⟨_ | s, r₁⟩
      · simp only [hnew, hs] at h
        obtain ⟨-, rfl⟩ := Prod.mk.inj h
        rcases hcases with ⟨⟨hnone, href⟩, -⟩ | ⟨-, hne⟩
        · refine .inr ⟨⟨hfind, hmem, ?_, ?_⟩, new, hptr, hkey, ?_⟩
          · rwa [findSrcListEntry, ← hsrc]
          · exact (sourceRefused_congr (r := { r with kmalloc := r.kmalloc.rest }) hsrc hrest hnet).mp href
          · rw [← htable, ← hsrc₁, hs]
        · simp [hs] at hne
      · simp [hnew, hs] at h
  | some e =>
    have hstrands : ¬Strands c r := fun hs ↦ by simp [hs.unknown] at hfind
    simp only [hfind] at h
    split at h
    · next hrej =>
      obtain ⟨-, rfl⟩ := Prod.mk.inj h
      exact .inl ⟨rfl, rfl, hstrands, fun himp ↦ by simp [(improves_of_some hfind).mp himp.1] at hrej⟩
    split at h
    · next hstate =>
      rcases hdel : r.delRoute cfg e.srcIp e.kernelRoute with ⟨_ | _, r₁⟩
      · simp only [hdel, Bool.false_eq_true, if_false] at h
        obtain ⟨-, rfl⟩ := Prod.mk.inj h
        refine .inl ⟨(delRoute_table hdel).1, delRoute_srcList hdel, hstrands, ?_⟩
        simp [CallsSucceed, hfind, hstate, hdel]
      · simp [hdel] at h
    · cases (Prod.mk.inj h).1

theorem rreqEntry_some {st : RouteState}
    (h : r.rreqEntry cfg c.srcIp c.dstIp c.tos c.dstId c.pathMetric = (some (e, st), r')) :
    Improves c r ∧ ¬Strands c r ∧
      ((r.findAodvRoute c.srcIp c.dstIp c.tos = some e ∧ r'.table = r.table) ∨
        r.findAodvRoute c.srcIp c.dstIp c.tos = none ∧ Created c r e r') := by
  unfold Routing.rreqEntry at h
  cases hfind : r.findAodvRoute c.srcIp c.dstIp c.tos with
  | none =>
    simp only [hfind] at h
    cases hmem : r.kmalloc.next with
    | false => simp [createAodvRoute, hmem] at h
    | true =>
      obtain ⟨new, r₀, hnew, hptr, hkey, htable, hsrc, hrest, hnet⟩ :=
        createAodvRoute_of_memory (c := c) hmem
      have hsrc₁ := @sourceEntry_table cfg r₀ c.srcIp
      have hcases := @sourceEntry_cases cfg r₀ c.srcIp
      rcases hs : r₀.sourceEntry cfg c.srcIp with ⟨_ | s, r₁⟩
      · simp [hnew, hs] at h
      · simp only [hnew, hs] at h
        obtain ⟨hnew', rfl⟩ := Prod.mk.inj h
        cases hnew'
        rcases hcases with ⟨-, hnone, -⟩ | ⟨hlisted, -⟩
        · simp [hs] at hnone
        refine ⟨improves_of_none hfind, fun hstrands ↦ hlisted ⟨?_, ?_⟩, .inr ⟨rfl, hptr, hkey, ?_⟩⟩
        · rw [findSrcListEntry, hsrc]
          exact hstrands.unlisted
        · exact (sourceRefused_congr (r := { r with kmalloc := r.kmalloc.rest }) hsrc hrest hnet).mpr hstrands.refused
        · rw [hs] at hsrc₁
          exact hsrc₁.trans htable
  | some e₀ =>
    have hstrands : ¬Strands c r := fun hs ↦ by simp [hs.unknown] at hfind
    simp only [hfind] at h
    split at h
    · cases (Prod.mk.inj h).1
    next hrej =>
    have himp : Improves c r := (improves_of_some hfind).mpr (by simpa using hrej)
    split at h
    · rcases hdel : r.delRoute cfg e₀.srcIp e₀.kernelRoute with ⟨_ | _, r₁⟩
      · simp [hdel] at h
      · simp only [hdel, if_true] at h
        obtain ⟨he, rfl⟩ := Prod.mk.inj h
        cases he
        exact ⟨himp, hstrands, .inl ⟨rfl, (delRoute_table hdel).1⟩⟩
    · obtain ⟨he, rfl⟩ := Prod.mk.inj h
      cases he
      exact ⟨himp, hstrands, .inl ⟨rfl, rfl⟩⟩

/-- The update of an entry at the end of `rreq_aodv_route`. -/
def Heard.update (c : Heard) (now : ℕ) (load : AodvRoute → UInt8) (e : AodvRoute) : AodvRoute :=
  { rreqUpdate now c.nextHop c.hops c.dstId c.pathMetric e with load := load e }

theorem call_cases {ok : Bool} (h : c.call cfg now r = some (ok, r')) :
    (ok = false ∧ r.rreqEntry cfg c.srcIp c.dstIp c.tos c.dstId c.pathMetric = (none, r')) ∨
      ok = true ∧ ∃ e st r₁ load,
        r.rreqEntry cfg c.srcIp c.dstIp c.tos c.dstId c.pathMetric = (some (e, st), r₁) ∧
          r'.table = r₁.table.map fun x ↦ if x.ptr = e.ptr then c.update now load x else x := by
  rw [Heard.call, Routing.rreqAodvRoute] at h
  split at h
  · next r₁ heq =>
    simp only [Option.some.injEq, Prod.mk.injEq] at h
    obtain ⟨rfl, rfl⟩ := h
    exact .inl ⟨rfl, heq⟩
  · next e st r₁ heq =>
    right
    split at h
    · obtain ⟨load, -, h⟩ := Option.bind_eq_some_iff.mp h
      simp only [Option.some.injEq, Prod.mk.injEq] at h
      obtain ⟨rfl, rfl⟩ := h
      refine ⟨rfl, e, st, r₁, fun _ ↦ load, heq, ?_⟩
      have hload : ∀ r₂ : Routing, (if st = .active then r₂.updateMyLoad else r₂).table = r₂.table := by
        intro r₂
        split
        · exact updateMyLoad_table r₂
        · rfl
      rw [hload]
      simp only [Routing.modifyAt, List.map_map]
      refine List.map_congr_left fun x _ ↦ ?_
      by_cases hptr : x.ptr = e.ptr
      · simp [hptr, Heard.update, rreqUpdate]
      · simp [hptr]
    · simp only [Option.some.injEq, Prod.mk.injEq] at h
      obtain ⟨rfl, rfl⟩ := h
      exact ⟨rfl, e, st, r₁, AodvRoute.load, heq, rfl⟩

theorem rreqEntry_of_improves (himp : Improves c r) (hcalls : CallsSucceed c cfg r) :
    ∃ e st r₁, r.rreqEntry cfg c.srcIp c.dstIp c.tos c.dstId c.pathMetric = (some (e, st), r₁) := by
  rcases h : r.rreqEntry cfg c.srcIp c.dstIp c.tos c.dstId c.pathMetric with ⟨_ | ⟨e, st⟩, r₁⟩
  · rcases rreqEntry_none h with ⟨-, -, -, hnot⟩ | ⟨hstrands, -⟩
    · exact absurd ⟨himp, hcalls⟩ hnot
    · simp only [CallsSucceed, hstrands.unknown] at hcalls
      exact absurd hstrands.refused (hcalls.2 hstrands.unlisted)
  · exact ⟨e, st, r₁, rfl⟩

/-- Where the calls succeed the route is updated, unless `compute_load` divides
by zero. -/
theorem taken_iff (himp : Improves c r) (hcalls : CallsSucceed c cfg r) :
    (∃ r', c.call cfg now r = some (true, r')) ↔ ¬Divides c cfg := by
  obtain ⟨e, st, r₁, h⟩ := rreqEntry_of_improves himp hcalls
  simp only [Heard.call, Routing.rreqAodvRoute, h, Divides]
  by_cases hwcim : cfg.gRoutingMetric = .wcim
  · cases hload : computeLoad c.sendRate c.tos with
    | none => simp [hwcim]
    | some load => simp [hwcim]
  · simp [hwcim]

theorem call_of_strands (h : Strands c r) :
    ∃ r', c.call cfg now r = some (false, r') ∧ ∃ new, Created c r new r' := by
  rcases hentry : r.rreqEntry cfg c.srcIp c.dstIp c.tos c.dstId c.pathMetric with ⟨_ | ⟨e, st⟩, r₁⟩
  · refine ⟨r₁, by simp [Heard.call, Routing.rreqAodvRoute, hentry], ?_⟩
    rcases rreqEntry_none hentry with ⟨-, -, hnot, -⟩ | ⟨-, hnew⟩
    · exact absurd h hnot
    · exact hnew
  · exact absurd h (rreqEntry_some hentry).2.1

theorem findAodvRoute_created {new : AodvRoute} (h : Created c r new r') :
    r'.findAodvRoute c.srcIp c.dstIp c.tos = some new := by
  obtain ⟨hsrc, hdst, htos⟩ := h.key
  have hskip : (r'.table.dropWhile fun e ↦ e.dstIp < c.dstIp) =
      new :: r.table.dropWhile fun e ↦ e.dstIp < c.dstIp := by
    rw [h.table, OrderedList.insertBy_eq, List.dropWhile_append_of_pos]
    · simp [hdst]
    · intro x hx
      exact List.mem_takeWhile_imp (p := fun e : AodvRoute ↦ e.dstIp < c.dstIp) hx
  rw [findAodvRoute, OrderedList.findRun, hskip]
  simp [hsrc, hdst, htos]

theorem findAodvRoute_map {f : AodvRoute → AodvRoute} (htable : r'.table = r.table.map f)
    (hf : ∀ x, (f x).srcIp = x.srcIp ∧ (f x).dstIp = x.dstIp ∧ (f x).tos = x.tos) :
    r'.findAodvRoute c.srcIp c.dstIp c.tos =
      (r.findAodvRoute c.srcIp c.dstIp c.tos).map f := by
  rw [findAodvRoute, findAodvRoute, htable, ← OrderedList.findRun_map]
  simp only [Function.comp_def, hf]

theorem Created.fresh {new : AodvRoute} (h : Created c r new r') (hr : Addressed r) :
    ∀ x ∈ r.table, x.ptr ≠ new.ptr := fun x hx ↦ by
  have := hr.fresh x hx
  rw [h.ptr]
  omega

theorem Created.filter {new : AodvRoute} (h : Created c r new r') :
    (r'.table.filter fun x ↦ x.ptr ≠ new.ptr) = r.table.filter fun x ↦ x.ptr ≠ new.ptr := by
  rw [h.table]
  exact OrderedList.filter_insertBy_of_neg (by simp) _

@[simp]
theorem update_ptr (load : AodvRoute → UInt8) (e : AodvRoute) :
    (c.update now load e).ptr = e.ptr := rfl

theorem filter_update (load : AodvRoute → UInt8) (ptr : ℕ) (l : List AodvRoute) :
    ((l.map fun x ↦ if x.ptr = ptr then c.update now load x else x).filter fun x ↦ x.ptr ≠ ptr) =
      l.filter fun x ↦ x.ptr ≠ ptr := by
  induction l with
  | nil => rfl
  | cons x l ih =>
    rw [List.map_cons, List.filter_cons, List.filter_cons, ih]
    by_cases hptr : x.ptr = ptr
    · simp [hptr]
    · simp [hptr]

theorem holds_update (load : AodvRoute → UInt8) (e : AodvRoute) : Holds c (c.update now load e) :=
  ⟨rfl, rfl, rfl, rfl, rfl⟩

theorem taken_table (h : c.call cfg now r = some (true, r')) :
    Improves c r ∧ ¬Strands c r ∧ ∃ e r₁ load,
      ((r.findAodvRoute c.srcIp c.dstIp c.tos = some e ∧ r₁.table = r.table) ∨
          r.findAodvRoute c.srcIp c.dstIp c.tos = none ∧ Created c r e r₁) ∧
        r'.table = r₁.table.map fun x ↦ if x.ptr = e.ptr then c.update now load x else x := by
  rcases call_cases h with ⟨⟨⟩, -⟩ | ⟨-, e, st, r₁, load, hentry, htable⟩
  obtain ⟨himp, hstrands, hbase⟩ := rreqEntry_some hentry
  exact ⟨himp, hstrands, e, r₁, load, hbase, htable⟩

theorem taken_find (h : c.call cfg now r = some (true, r')) :
    ∃ e, r'.findAodvRoute c.srcIp c.dstIp c.tos = some e ∧ Holds c e ∧
      (r'.table.filter fun x ↦ x.ptr ≠ e.ptr) = r.table.filter fun x ↦ x.ptr ≠ e.ptr := by
  obtain ⟨-, -, e, r₁, load, hbase, htable⟩ := taken_table h
  have hfind : r₁.findAodvRoute c.srcIp c.dstIp c.tos = some e := by
    rcases hbase with ⟨hfind, hsame⟩ | ⟨-, hnew⟩
    · rwa [findAodvRoute, hsame]
    · exact findAodvRoute_created hnew
  have hothers : (r₁.table.filter fun x ↦ x.ptr ≠ e.ptr) = r.table.filter fun x ↦ x.ptr ≠ e.ptr := by
    rcases hbase with ⟨-, hsame⟩ | ⟨-, hnew⟩
    · rw [hsame]
    · exact hnew.filter
  refine ⟨c.update now load e, ?_, holds_update load e, ?_⟩
  · rw [findAodvRoute_map htable, hfind, Option.map_some, if_pos rfl]
    intro x
    split <;> exact ⟨rfl, rfl, rfl⟩
  · rw [update_ptr, ← hothers, htable]
    exact filter_update load e.ptr r₁.table

theorem notBehind_refl (e : AodvRoute) : NotBehind e e := .inr ⟨rfl, UInt32.le_refl _⟩

theorem NotBehind.trans {e₁ e₂ e₃ : AodvRoute} (h : NotBehind e₁ e₂) (h' : NotBehind e₂ e₃) :
    NotBehind e₁ e₃ := by
  simp only [NotBehind, UInt32.lt_iff_toNat_lt, UInt32.le_iff_toNat_le, ← UInt32.toNat_inj] at *
  omega

theorem call_notBehind {ok : Bool} (hr : Addressed r) (h : c.call cfg now r = some (ok, r')) :
    ∀ e ∈ r.table, ∃ e' ∈ r'.table, e'.ptr = e.ptr ∧ NotBehind e e' := by
  intro e he
  cases ok with
  | false =>
    have hmem : e ∈ r'.table := by
      rcases call_cases h with ⟨-, hentry⟩ | ⟨⟨⟩, -⟩
      rcases rreqEntry_none hentry with ⟨hsame, -⟩ | ⟨-, new, hnew⟩
      · rwa [hsame]
      · rw [hnew.table, OrderedList.mem_insertBy]
        exact .inr he
    exact ⟨e, hmem, rfl, notBehind_refl e⟩
  | true =>
    obtain ⟨himp, -, e₀, r₁, load, hbase, htable⟩ := taken_table h
    have hmem : e ∈ r₁.table := by
      rcases hbase with ⟨-, hsame⟩ | ⟨-, hnew⟩
      · rwa [hsame]
      · rw [hnew.table, OrderedList.mem_insertBy]
        exact .inr he
    refine ⟨_, htable ▸ List.mem_map_of_mem hmem, ?_⟩
    by_cases hptr : e.ptr = e₀.ptr
    · rcases hbase with ⟨hfind, -⟩ | ⟨-, hnew⟩
      · have he₀ : e = e₀ :=
          List.inj_on_of_nodup_map hr.distinct he (findAodvRoute_some hfind).1 hptr
        subst he₀
        rw [if_pos rfl]
        refine ⟨rfl, ?_⟩
        rcases himp e hfind with hlt | ⟨heq, hlt⟩
        · exact .inl hlt
        · exact .inr ⟨heq.symm, UInt32.le_of_lt hlt⟩
      · exact absurd hptr (hnew.fresh hr e he)
    · rw [if_neg hptr]
      exact ⟨rfl, notBehind_refl e⟩

theorem WellFormed.addressed (hr : WellFormed cfg r) : Addressed r := ⟨hr.distinct, hr.fresh⟩

/-- Calls of `rreq_aodv_route` one after the other. -/
inductive Calls (cfg : Config) (r : Routing) : Routing → Prop
  | none : Calls cfg r r
  | call {c : Heard} {now : ℕ} {ok : Bool} {r₁ r' : Routing} (hs : Calls cfg r r₁)
      (h : c.call cfg now r₁ = some (ok, r')) : Calls cfg r r'

/-- No entry falls behind what it was, and none is lost. -/
theorem Calls.notBehind (hr : WellFormed cfg r) (h : Calls cfg r r') :
    ∀ e ∈ r.table, ∃ e' ∈ r'.table, e'.ptr = e.ptr ∧ NotBehind e e' := by
  suffices hboth : WellFormed cfg r' ∧
      ∀ e ∈ r.table, ∃ e' ∈ r'.table, e'.ptr = e.ptr ∧ NotBehind e e' from hboth.2
  induction h with
  | none => exact ⟨hr, fun e he ↦ ⟨e, he, rfl, notBehind_refl e⟩⟩
  | call hs h ih =>
    obtain ⟨hr₁, hbehind⟩ := ih
    refine ⟨hr₁.rreqAodvRoute h, fun e he ↦ ?_⟩
    obtain ⟨e₁, he₁, hptr₁, hnot₁⟩ := hbehind e he
    obtain ⟨e', he', hptr, hnot⟩ := call_notBehind (WellFormed.addressed hr₁) h e₁ he₁
    exact ⟨e', he', hptr.trans hptr₁, hnot₁.trans hnot⟩

/-- `rreq_aodv_route` is an atomic and monotone update, except that it leaves a
new entry behind whose source cannot be listed, and that `compute_load` may
divide by zero for a route that is taken. -/
theorem atomic_update_iff (c : Heard) (cfg : Config) (now : ℕ) (r : Routing) (hr : Addressed r) :
    AtomicUpdate c cfg now r ↔
      ¬Strands c r ∧ (Improves c r → CallsSucceed c cfg r → ¬Divides c cfg) := by
  constructor
  · intro h
    refine ⟨fun hstrands ↦ ?_, fun himp hcalls ↦ (taken_iff himp hcalls).mp (h.takes himp hcalls)⟩
    obtain ⟨r', hcall, new, hnew⟩ := @call_of_strands c cfg now r hstrands
    have hlength := congrArg List.length (h.refused r' hcall).1
    rw [hnew.table, (OrderedList.insertBy_perm _ _ _).length_eq, List.length_cons] at hlength
    omega
  · rintro ⟨hstrands, hdivides⟩
    exact
      { taken := fun r' h ↦ ⟨(taken_table h).1, taken_find h⟩
        takes := fun himp hcalls ↦ (taken_iff himp hcalls).mpr (hdivides himp hcalls)
        refused := fun r' h ↦ by
          rcases call_cases h with ⟨-, hentry⟩ | ⟨⟨⟩, -⟩
          rcases rreqEntry_none hentry with ⟨htable, hsrc, -⟩ | ⟨hs, -⟩
          · exact ⟨htable, hsrc⟩
          · exact absurd hs hstrands
        monotone := fun ok r' h ↦ call_notBehind hr h }

/-- A route from 192.168.1.3 to 192.168.1.9 by 192.168.1.2. -/
def heardRoute : Heard where
  srcIp := 0x0301a8c0
  dstIp := 0x0901a8c0
  tos := 0
  nextHop := 0x0201a8c0
  sendRate := 60
  hops := 2
  dstId := 5
  pathMetric := 2

theorem addressed_station (kmalloc : Outcomes) :
    Addressed { station.routing with kmalloc := kmalloc } := by
  have hfresh : ∀ e ∈ station.routing.table, e.ptr < station.routing.heap := by decide +kernel
  exact ⟨List.nodup_singleton _, hfresh⟩

theorem atomic_update_iff_heardRoute : AtomicUpdate heardRoute station.cfg 0 station.routing := by
  refine (atomic_update_iff heardRoute station.cfg 0 station.routing (addressed_station [])).mpr
    ⟨fun hstrands ↦ ?_, fun _ _ hdivides ↦ ?_⟩
  · rcases hstrands.refused with hmem | ⟨-, hfull | hrule⟩
    · cases hmem
    · exact absurd hfull (by decide +kernel)
    · cases hrule
  · cases hdivides.1

/-- With memory for the entry and none for its source, the call returns 0 and
leaves the entry. -/
theorem refused_leaves_entry :
    ¬∀ (c : Heard) (cfg : Config) (now : ℕ) (r : Routing), Addressed r → AtomicUpdate c cfg now r := by
  intro hatomic
  have hcall : (heardRoute.call station.cfg 0 { station.routing with kmalloc := [true, false] }).map
      (fun p ↦ (p.1, p.2.table.length)) = some (false, 2) := by
    decide +kernel
  obtain ⟨⟨ok, r'⟩, hcall, hresult⟩ := Option.map_eq_some_iff.mp hcall
  obtain ⟨rfl, hlength⟩ := Prod.mk.inj hresult
  have hsame := (hatomic _ _ _ _ (addressed_station [true, false])).refused r' hcall
  rw [hsame.1] at hlength
  revert hlength
  decide +kernel

end Fbaodv.Proofs.RreqUpdate
