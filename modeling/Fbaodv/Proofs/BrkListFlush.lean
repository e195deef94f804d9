import Fbaodv.Proofs.PacketDiscovery
import Fbaodv.Foundation.TwoPhase

namespace Fbaodv.Proofs.BrkListFlush

open Fbaodv.Foundation Fbaodv.Model Node TwoPhase PacketDiscovery

/-- Two-phase expiry of the broken links. -/
def brkRule (now : ℕ) : Rule BrkLink where
  due x := timeBefore x.lifetime now
  retired x := x.state == .invalid
  retire := expireBrkLink now

/-- What must follow a link for the loop of `flush_brk_list` to treat both as
the rule says: after one that it expires, one that is to be removed; after one
that it removes, one that is left alone. -/
def Followed (now : ℕ) (x : BrkLink) (next : Option BrkLink) : Prop :=
  (brkRule now).due x →
    ∃ y, next = some y ∧
      if (brkRule now).retired x then (brkRule now).due y = false else (brkRule now).dies y

def AllFollowed (now : ℕ) : List BrkLink → Prop
  | [] => True
  | x :: l => Followed now x l.head? ∧ AllFollowed now l

variable {now : ℕ} {x y z : BrkLink} {l r : List BrkLink}

theorem due_expireBrkLink (x : BrkLink) : (brkRule now).due (expireBrkLink now x) = false := by
  have hperiod : 2 * (now + deletePeriod) < 2 * now + ulongSize := by
    have hperiod : 2 * deletePeriod < ulongSize := by decide
    omega
  refine Bool.eq_false_iff.mpr fun hdue ↦ ?_
  have hlt : now + deletePeriod < now := WrapTime.lt_of_before hperiod hdue
  omega

section Loop

theorem flush_fresh (h : (brkRule now).due x = false) :
    flushBrkLinks now (x :: l) = (flushBrkLinks now l).map (x :: ·) := by
  have htime : timeBefore x.lifetime now = false := h
  rw [flushBrkLinks.eq_def, Option.map_eq_bind]
  simp [htime]

theorem flush_expire (h : (brkRule now).due x) (hr : (brkRule now).retired x = false) :
    flushBrkLinks now (x :: y :: z :: l) =
      (flushBrkLinks now l).map fun r ↦ expireBrkLink now x :: z :: r := by
  have htime : timeBefore x.lifetime now = true := h
  have hstate : x.state ≠ .invalid := by simpa [brkRule] using hr
  rw [flushBrkLinks.eq_def, Option.map_eq_bind]
  simp [htime, hstate]

theorem flush_remove (h : (brkRule now).dies x) :
    flushBrkLinks now (x :: z :: l) = (flushBrkLinks now l).map (z :: ·) := by
  obtain ⟨htime, hstate⟩ : timeBefore x.lifetime now = true ∧ x.state = .invalid := by
    simpa [Rule.dies, brkRule] using h
  rw [flushBrkLinks.eq_def, Option.map_eq_bind]
  simp [htime, hstate]

end Loop

/-- The loop does not run off the end of the list: two links follow each that it
expires, and one each that it removes. -/
def ComesThrough (now : ℕ) : List BrkLink → Prop
  | [] => True
  | x :: l =>
    if (brkRule now).due x = false then ComesThrough now l
    else if x.state ≠ .invalid then
      match l with
      | _ :: _ :: l => ComesThrough now l
      | _ => False
    else
      match l with
      | _ :: l => ComesThrough now l
      | [] => False

theorem comesThrough_iff : (∃ r, flushBrkLinks now l = some r) ↔ ComesThrough now l := by
  induction l using flushBrkLinks.induct now with
  | case1 => exact iff_of_true ⟨[], rfl⟩ trivial
  | case2 x l hdue ih =>
    have hdue : (brkRule now).due x = false := by simpa [brkRule] using hdue
    rw [flush_fresh hdue, ComesThrough.eq_def]
    simp [hdue, ih]
  | case3 x hdue hstate y z l ih =>
    have hdue : (brkRule now).due x = true := by simpa [brkRule] using hdue
    rw [flush_expire hdue (by simpa [brkRule] using hstate), ComesThrough.eq_def]
    simp [hdue, hstate, ih]
  | case4 x l hdue hstate hshort =>
    rw [flushBrkLinks.eq_def, ComesThrough.eq_def]
    have hdue' : (brkRule now).due x = true := by simpa [brkRule] using hdue
    rcases l with - | ⟨y, - | ⟨z, l⟩⟩
    · simp [hdue, hdue', hstate]
    · simp [hdue, hdue', hstate]
    · exact (hshort y z l rfl).elim
  | case5 x hdue hstate z l ih =>
    have hdue : (brkRule now).due x = true := by simpa [brkRule] using hdue
    have hstate : x.state = .invalid := by simpa using hstate
    have hdies : (brkRule now).dies x = true := by
      rw [Rule.dies, hdue]
      simpa [brkRule] using hstate
    rw [flush_remove hdies, ComesThrough.eq_def]
    simp [hdue, hstate, ih]
  | case6 x hdue hstate =>
    have hdue' : (brkRule now).due x = true := by simpa [brkRule] using hdue
    rw [flushBrkLinks.eq_def, ComesThrough.eq_def]
    simp [hdue, hdue', hstate]

/-- What is left after the loop and not due cannot be more than what the rule
leaves, and it is as much only if each link was followed as it has to be. -/
theorem followed_of_flush (h : flushBrkLinks now l = some r)
    (hr : ∀ z ∈ r, (brkRule now).due z = false) :
    r.length + l.countP (brkRule now).dies ≤ l.length ∧
      (r.length + l.countP (brkRule now).dies = l.length → AllFollowed now l) := by
  induction l using flushBrkLinks.induct now generalizing r with
  | case1 =>
    cases h
    exact ⟨le_rfl, fun _ ↦ trivial⟩
  | case2 x l hdue ih =>
    have hdue : (brkRule now).due x = false := by simpa [brkRule] using hdue
    rw [flush_fresh hdue, Option.map_eq_some_iff] at h
    obtain ⟨r, h, rfl⟩ := h
    obtain ⟨hle, hall⟩ := ih h fun z hz ↦ hr z (List.mem_cons_of_mem _ hz)
    rw [List.countP_cons_of_neg (by simp [Rule.dies, hdue])]
    simp only [List.length_cons]
    refine ⟨by omega, fun heq ↦ ⟨fun hx ↦ ?_, hall (by omega)⟩⟩
    simp [hdue] at hx
  | case3 x hdue hstate y z l ih =>
    have hdue : (brkRule now).due x = true := by simpa [brkRule] using hdue
    have hret : (brkRule now).retired x = false := by simpa [brkRule] using hstate
    rw [flush_expire hdue hret, Option.map_eq_some_iff] at h
    obtain ⟨r, h, rfl⟩ := h
    simp only [List.mem_cons, forall_eq_or_imp] at hr
    obtain ⟨-, hz, hr⟩ := hr
    obtain ⟨hle, hall⟩ := ih h hr
    rw [List.countP_cons_of_neg (by simp [Rule.dies, hret]), List.countP_cons,
      List.countP_cons_of_neg (by simp [Rule.dies, hz])]
    simp only [List.length_cons]
    refine ⟨by split <;> omega, fun heq ↦ ?_⟩
    have hy : (brkRule now).dies y = true := by
      by_contra hy
      rw [if_neg hy] at heq
      omega
    rw [if_pos hy] at heq
    refine ⟨fun _ ↦ ⟨y, rfl, ?_⟩, fun hy' ↦ ⟨z, rfl, ?_⟩, fun hz' ↦ ?_, hall (by omega)⟩
    · simpa [hret] using hy
    · simp only [Rule.dies, Bool.and_eq_true] at hy
      simpa [hy.2] using hz
    · simp [hz] at hz'
  | case4 x l hdue hstate hshort =>
    have hdue : timeBefore x.lifetime now = true := by simpa using hdue
    rw [flushBrkLinks.eq_def] at h
    rcases l with - | ⟨y, - | ⟨z, l⟩⟩
    · simp [hdue, hstate] at h
    · simp [hdue, hstate] at h
    · exact (hshort y z l rfl).elim
  | case5 x hdue hstate z l ih =>
    have hdies : (brkRule now).dies x = true := by
      simp only [Rule.dies, Bool.and_eq_true]
      exact ⟨by simpa [brkRule] using hdue, by simpa [brkRule] using hstate⟩
    rw [flush_remove hdies, Option.map_eq_some_iff] at h
    obtain ⟨r, h, rfl⟩ := h
    simp only [List.mem_cons, forall_eq_or_imp] at hr
    obtain ⟨hz, hr⟩ := hr
    obtain ⟨hle, hall⟩ := ih h hr
    rw [List.countP_cons_of_pos hdies, List.countP_cons_of_neg (by simp [Rule.dies, hz])]
    simp only [List.length_cons]
    refine ⟨by omega, fun heq ↦ ⟨fun _ ↦ ⟨z, rfl, ?_⟩, fun hz' ↦ ?_, hall (by omega)⟩⟩
    · simp only [Rule.dies, Bool.and_eq_true] at hdies
      simpa [hdies.2] using hz
    · simp [hz] at hz'
  | case6 x hdue hstate =>
    have hdue : timeBefore x.lifetime now = true := by simpa using hdue
    rw [flushBrkLinks.eq_def] at h
    simp [hdue, hstate] at h

theorem flush_of_followed (h : AllFollowed now l) :
    flushBrkLinks now l = some ((brkRule now).sweep l) := by
  induction l using flushBrkLinks.induct now with
  | case1 => rfl
  | case2 x l hdue ih =>
    have hdue : (brkRule now).due x = false := by simpa [brkRule] using hdue
    rw [flush_fresh hdue, ih h.2, Rule.sweep_cons_some (Rule.turn_fresh hdue), Option.map_some]
  | case3 x hdue hstate y z l ih =>
    have hdue : (brkRule now).due x = true := by simpa [brkRule] using hdue
    have hret : (brkRule now).retired x = false := by simpa [brkRule] using hstate
    obtain ⟨hx, hy, hz, hl⟩ := h
    have hdies : (brkRule now).dies y = true := by
      obtain ⟨_, ⟨⟩, hdies⟩ := hx hdue
      simpa [hret] using hdies
    simp only [Rule.dies, Bool.and_eq_true] at hdies
    have hfresh : (brkRule now).due z = false := by
      obtain ⟨_, ⟨⟩, hfresh⟩ := hy hdies.1
      simpa [hdies.2] using hfresh
    rw [flush_expire hdue hret, ih hl, Rule.sweep_cons_some (Rule.turn_retire hdue hret),
      Rule.sweep_cons_none (Rule.turn_dies hdies.1 hdies.2),
      Rule.sweep_cons_some (Rule.turn_fresh hfresh)]
    rfl
  | case4 x l hdue hstate hshort =>
    have hdue : (brkRule now).due x = true := by simpa [brkRule] using hdue
    have hret : (brkRule now).retired x = false := by simpa [brkRule] using hstate
    obtain ⟨hx, hl⟩ := h
    obtain ⟨y, hy, hdies⟩ := hx hdue
    obtain ⟨l, rfl⟩ := List.head?_eq_some_iff.mp hy
    have hdies : (brkRule now).dies y = true := by simpa [hret] using hdies
    simp only [Rule.dies, Bool.and_eq_true] at hdies
    obtain ⟨z, hz, -⟩ := hl.1 hdies.1
    obtain ⟨l, rfl⟩ := List.head?_eq_some_iff.mp hz
    exact (hshort _ _ _ rfl).elim
  | case5 x hdue hstate z l ih =>
    have hdue : (brkRule now).due x = true := by simpa [brkRule] using hdue
    have hret : (brkRule now).retired x = true := by simpa [brkRule] using hstate
    obtain ⟨hx, -, hl⟩ := h
    have hfresh : (brkRule now).due z = false := by
      obtain ⟨_, ⟨⟩, hfresh⟩ := hx hdue
      simpa [hret] using hfresh
    rw [flush_remove (by simp [Rule.dies, hdue, hret]), ih hl,
      Rule.sweep_cons_none (Rule.turn_dies hdue hret), Rule.sweep_cons_some (Rule.turn_fresh hfresh)]
    rfl
  | case6 x hdue hstate =>
    obtain ⟨_, hnext, -⟩ := h.1 (by simpa [brkRule] using hdue)
    cases hnext

/-- `flush_brk_list` expires and removes what it has to, and comes to its end,
exactly when each link that is due stands before one of the right kind. -/
theorem flush_brk_list_iff (n : Node) :
    n.flushBrkList = some { n with brkList := (brkRule n.now).sweep n.brkList } ↔
      AllFollowed n.now n.brkList := by
  constructor
  · intro h
    obtain ⟨r, hr, hn⟩ := Option.bind_eq_some_iff.mp h
    have hsweep : r = (brkRule n.now).sweep n.brkList :=
      congrArg Node.brkList (Option.some_inj.mp hn)
    subst hsweep
    exact (followed_of_flush hr fun z ↦ Rule.not_due_of_sweep due_expireBrkLink).2 Rule.sweep_length
  · intro h
    rw [flushBrkList, flush_of_followed h]
    rfl

/-- The two-phase expiry that the loop misses already for one link, whose
expiry is followed by a step to `NULL`. -/
theorem single_link_follows_null :
    ¬∀ (n : Node) (srcIp dstIp lastHop lastAvail : Ip) (later : ℕ), n.brkList = [] →
      let m := { n.createBrkLink srcIp dstIp lastHop lastAvail with now := n.now + later }
      m.flushBrkList = some { m with brkList := (brkRule m.now).sweep m.brkList } := by
  intro hflush
  have hnull : ({ station.createBrkLink 0x0101a8c0 0x0901a8c0 0x0201a8c0 0x0101a8c0 with
      now := station.now + (brkLinkTimeout + 1) } : Node).flushBrkList = none := by
    decide +kernel
  have hsome := hflush station 0x0101a8c0 0x0901a8c0 0x0201a8c0 0x0101a8c0 (brkLinkTimeout + 1) rfl
  cases hnull.symm.trans hsome

end Fbaodv.Proofs.BrkListFlush
