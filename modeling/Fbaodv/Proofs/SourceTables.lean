import Fbaodv.Foundation.Slots
import Fbaodv.Proofs.SourceAccounts

namespace Fbaodv.Proofs.SourceTables

open Fbaodv.Model Fbaodv.Model.Routing Fbaodv.Foundation.Slots
open Fbaodv.Proofs.SourceAccounts Fbaodv.Proofs.PacketDiscovery

/-- The entries that have a route table of their own. -/
def nonNull (l : List SrcListEntry) : List SrcListEntry := l.filter fun s ↦ s.ip ≠ gNullIp

/-- Addresses and route tables are given once, and the table of `g_null_ip` is
the main one. -/
structure Allocated (l : List SrcListEntry) : Prop where
  addresses : (l.map SrcListEntry.ip).Nodup
  tables : ((nonNull l).map SrcListEntry.rtTable).Nodup
  range : ∀ s ∈ l, s.ip ≠ gNullIp → 1 ≤ s.rtTable ∧ s.rtTable ≤ maxRouteTables
  main : ∀ s ∈ l, s.ip = gNullIp → s.rtTable = defaultRouteTable

/-- The calls from `init_src_list` on, with any outcomes of `kmalloc` and of the
kernel requests. -/
inductive SourceRun (cfg : Config) : Routing → Prop
  | init {r : Routing} (h : r.srcList = []) : SourceRun cfg r
  | insert {r : Routing} (ip : Ip) (hr : SourceRun cfg r) (hip : ∀ s ∈ r.srcList, s.ip ≠ ip) :
      SourceRun cfg (r.insertSrcListEntry cfg ip).2
  | delete {r : Routing} (ip : Ip) (hr : SourceRun cfg r) : SourceRun cfg (r.deleteSrcListEntry ip)

section Calls

variable {cfg : Config} {r : Routing} {ip : Ip} {l : List SrcListEntry} {s : SrcListEntry}

theorem findFirstRttable_eq : r.findFirstRttable =
    (firstFree 1 maxRouteTables (r.srcList.map SrcListEntry.rtTable)).getD (maxRouteTables + 1) := by
  rw [findFirstRttable, firstFree]
  congr 2
  funext n
  rw [List.contains_eq_any_beq, List.any_map]
  congr 2
  funext s
  exact Bool.beq_comm

theorem maxRouteTables_lt_iff : maxRouteTables < r.findFirstRttable ↔
    firstFree 1 maxRouteTables (r.srcList.map SrcListEntry.rtTable) = none := by
  rw [findFirstRttable_eq]
  cases h : firstFree 1 maxRouteTables (r.srcList.map SrcListEntry.rtTable) with
  | none => simp
  | some n =>
    have hlt := lt_of_firstFree h
    simp only [Option.getD_some, reduceCtorEq, iff_false]
    omega

theorem insertSrcListEntry_spec (cfg : Config) (ip : Ip) (r : Routing) :
    ((r.insertSrcListEntry cfg ip).1 = none ∧ (r.insertSrcListEntry cfg ip).2.srcList = r.srcList ∧
      (r.kmalloc.next = false ∨ ip ≠ gNullIp ∧ (maxRouteTables < r.findFirstRttable ∨ r.netlink.next = false))) ∨
    ∃ s, (r.insertSrcListEntry cfg ip).1 = some s ∧ (r.insertSrcListEntry cfg ip).2.srcList = s :: r.srcList ∧
      s.ip = ip ∧ r.kmalloc.next = true ∧ (ip = gNullIp → s.rtTable = defaultRouteTable) ∧
      (ip ≠ gNullIp → s.rtTable = r.findFirstRttable ∧ r.findFirstRttable ≤ maxRouteTables) := by
  have hfirst : ∀ o, findFirstRttable { r with kmalloc := o } = r.findFirstRttable := fun _ ↦ rfl
  simp only [insertSrcListEntry, hfirst, rpdbRule]
  cases hmem : r.kmalloc.next with
  | false => simp
  | true =>
    by_cases hnull : ip = gNullIp
    · simp [hnull]
    · by_cases hfull : maxRouteTables < r.findFirstRttable
      · simp [hnull, hfull]
      · cases hrule : r.netlink.next <;> simp [hnull, hfull]
        omega

theorem isLeast_findFirstRttable (h : r.findFirstRttable ≤ maxRouteTables) :
    IsLeast {n | 1 ≤ n ∧ ∀ s ∈ r.srcList, s.rtTable ≠ n} r.findFirstRttable := by
  obtain ⟨n, hn⟩ := Option.ne_none_iff_exists'.mp fun hnone ↦ absurd (maxRouteTables_lt_iff.mpr hnone) (not_lt.mpr h)
  have hfirst : r.findFirstRttable = n := by rw [findFirstRttable_eq, hn, Option.getD_some]
  have hset : {n | 1 ≤ n ∧ ∀ s ∈ r.srcList, s.rtTable ≠ n} =
      {n | 1 ≤ n ∧ n ∉ r.srcList.map SrcListEntry.rtTable} := by
    ext n
    simp [List.mem_map]
  rw [hfirst, hset]
  exact isLeast_of_firstFree hn

theorem Allocated.sublist {l' : List SrcListEntry} (hl : Allocated l) (h : l'.Sublist l) : Allocated l' where
  addresses := hl.addresses.sublist (h.map _)
  tables := hl.tables.sublist ((h.filter _).map _)
  range s hs := hl.range s (h.subset hs)
  main s hs := hl.main s (h.subset hs)

theorem Allocated.insert (hl : Allocated r.srcList) (hip : ∀ s ∈ r.srcList, s.ip ≠ ip) (hs : s.ip = ip)
    (hnull : ip = gNullIp → s.rtTable = defaultRouteTable)
    (hfree : ip ≠ gNullIp → s.rtTable = r.findFirstRttable ∧ r.findFirstRttable ≤ maxRouteTables) :
    Allocated (s :: r.srcList) := by
  have haddresses : (s :: r.srcList).map SrcListEntry.ip |>.Nodup := by
    refine List.nodup_cons.mpr ⟨fun hmem ↦ ?_, hl.addresses⟩
    obtain ⟨s', hs', heq⟩ := List.mem_map.mp hmem
    exact hip s' hs' (heq.trans hs)
  by_cases h : ip = gNullIp
  · have hsame : nonNull (s :: r.srcList) = nonNull r.srcList := by simp [nonNull, hs, h]
    refine ⟨haddresses, hsame ▸ hl.tables, fun s' hs' hne ↦ ?_, fun s' hs' hzero ↦ ?_⟩
    · rcases List.mem_cons.mp hs' with rfl | hs'
      · exact absurd (hs.trans h) hne
      · exact hl.range s' hs' hne
    · rcases List.mem_cons.mp hs' with rfl | hs'
      · exact hnull h
      · exact hl.main s' hs' hzero
  · obtain ⟨htable, hle⟩ := hfree h
    have hleast := isLeast_findFirstRttable hle
    have hcons : nonNull (s :: r.srcList) = s :: nonNull r.srcList := by simp [nonNull, hs, h]
    refine ⟨haddresses, ?_, fun s' hs' hne ↦ ?_, fun s' hs' hzero ↦ ?_⟩
    · rw [hcons]
      refine List.nodup_cons.mpr ⟨fun hmem ↦ ?_, hl.tables⟩
      obtain ⟨s', hs', heq⟩ := List.mem_map.mp hmem
      exact hleast.1.2 s' (List.mem_of_mem_filter hs') (heq.trans htable)
    · rcases List.mem_cons.mp hs' with rfl | hs'
      · rw [htable]
        exact ⟨hleast.1.1, hle⟩
      · exact hl.range s' hs' hne
    · rcases List.mem_cons.mp hs' with rfl | hs'
      · exact absurd (hs.symm.trans hzero) h
      · exact hl.main s' hs' hzero

theorem SourceRun.allocated (h : SourceRun cfg r) : Allocated r.srcList := by
  induction h with
  | @init r h =>
    rw [h]
    refine ⟨List.nodup_nil, List.nodup_nil, ?_, ?_⟩ <;> intro s hs <;> cases hs
  | @insert r ip hr hip ih =>
    rcases insertSrcListEntry_spec cfg ip r with ⟨-, hlist, -⟩ | ⟨s, -, hlist, hs, -, hnull, hfree⟩
    · rwa [hlist]
    · rw [hlist]
      exact ih.insert hip hs hnull hfree
  | @delete r ip hr ih =>
    rw [deleteSrcListEntry_srcList ih.addresses]
    exact ih.sublist List.filter_sublist

/-- The pigeonhole: the numbers are out exactly if each source that is not null
has one of them. -/
theorem Allocated.full_iff (hl : Allocated r.srcList) :
    maxRouteTables < r.findFirstRttable ↔ (nonNull r.srcList).length = maxRouteTables := by
  have hmem : ∀ n, 1 ≤ n → n < 1 + maxRouteTables → (n ∈ (nonNull r.srcList).map SrcListEntry.rtTable ↔
      n ∈ r.srcList.map SrcListEntry.rtTable) := by
    intro n _ hlt
    refine ⟨fun h ↦ ((List.filter_sublist.map _).subset h), fun h ↦ ?_⟩
    obtain ⟨s, hs, rfl⟩ := List.mem_map.mp h
    refine List.mem_map_of_mem (List.mem_filter.mpr ⟨hs, decide_eq_true fun hzero ↦ ?_⟩)
    have hmain := hl.main s hs hzero
    have hdefault : defaultRouteTable = 254 := rfl
    have hmax : maxRouteTables = 252 := rfl
    omega
  have hrange : ∀ n ∈ (nonNull r.srcList).map SrcListEntry.rtTable, 1 ≤ n ∧ n < 1 + maxRouteTables := by
    intro n hn
    obtain ⟨s, hs, rfl⟩ := List.mem_map.mp hn
    obtain ⟨hs, hne⟩ := List.mem_filter.mp hs
    have hrange := hl.range s hs (of_decide_eq_true hne)
    omega
  rw [maxRouteTables_lt_iff, ← firstFree_congr hmem, firstFree_eq_none_iff_length hl.tables hrange, List.length_map]

end Calls

/-- However sources come and go, no two share an address or a route table, each
new one gets the smallest number not in use, and the numbers are out only when
each of them is in use. -/
theorem source_tables {cfg : Config} {r : Routing} (h : SourceRun cfg r) :
    Allocated r.srcList ∧
    (∀ ip s, ip ≠ gNullIp → (r.insertSrcListEntry cfg ip).1 = some s →
      (r.insertSrcListEntry cfg ip).2.srcList = s :: r.srcList ∧ s.ip = ip ∧
        IsLeast {n | 1 ≤ n ∧ ∀ s ∈ r.srcList, s.rtTable ≠ n} s.rtTable) ∧
    ∀ ip, ip ≠ gNullIp → r.kmalloc.next = true → r.netlink.next = true →
      ((r.insertSrcListEntry cfg ip).1 = none ↔ (nonNull r.srcList).length = maxRouteTables) := by
  refine ⟨h.allocated, fun ip s hne hs ↦ ?_, fun ip hne hmem hnet ↦ ?_⟩
  · rcases insertSrcListEntry_spec cfg ip r with ⟨hnone, -⟩ | ⟨s', hs', hlist, hip, -, -, hfree⟩
    · rw [hnone] at hs
      cases hs
    · obtain rfl := Option.some.inj (hs'.symm.trans hs)
      obtain ⟨htable, hle⟩ := hfree hne
      exact ⟨hlist, hip, htable ▸ isLeast_findFirstRttable hle⟩
  · rw [← h.allocated.full_iff]
    rcases insertSrcListEntry_spec cfg ip r with ⟨hnone, -, hrefused⟩ | ⟨s', hs', -, -, -, -, hfree⟩
    · refine iff_of_true hnone ?_
      rcases hrefused with hmem' | ⟨-, hfull | hnet'⟩
      · rw [hmem] at hmem'
        cases hmem'
      · exact hfull
      · rw [hnet] at hnet'
        cases hnet'
    · rw [hs']
      exact iff_of_false (Option.some_ne_none s') (not_lt.mpr (hfree hne).2)

/-- Two sources have come, and the first has gone. -/
def oneGone : Routing :=
  let r := { station.routing with srcList := [] }
  let r := (r.insertSrcListEntry station.cfg 0x0301a8c0).2
  let r := (r.insertSrcListEntry station.cfg 0x0401a8c0).2
  r.deleteSrcListEntry 0x0301a8c0

theorem source_tables_reused : oneGone.srcList = [⟨0x0401a8c0, 2, 0⟩] ∧ Allocated oneGone.srcList ∧
    ∃ s, (oneGone.insertSrcListEntry station.cfg 0x0501a8c0).1 = some s ∧ s.rtTable = 1 := by
  have hempty : SourceRun station.cfg { station.routing with srcList := [] } := .init rfl
  have hfirst := hempty.insert 0x0301a8c0 fun s hs ↦ absurd hs List.not_mem_nil
  have hsecond := hfirst.insert 0x0401a8c0 (by decide)
  have hrun : SourceRun station.cfg oneGone := hsecond.delete 0x0301a8c0
  obtain ⟨hallocated, hfree, hfull⟩ := source_tables hrun
  have hnone := (hfull 0x0501a8c0 (by decide) rfl rfl).not.mpr (by decide)
  obtain ⟨s, hs⟩ := Option.ne_none_iff_exists'.mp hnone
  obtain ⟨-, -, hleast⟩ := hfree 0x0501a8c0 s (by decide) hs
  have hone : s.rtTable ≤ 1 := hleast.2 ⟨le_refl 1, by decide⟩
  exact ⟨rfl, hallocated, s, hs, le_antisymm hone hleast.1.1⟩

end Fbaodv.Proofs.SourceTables
