import LossyLink.Proofs.Simulation.Session

/-! # Drop rules

A rule drops one packet of its origin, the first that has its number when the rule is there.
So when all rules were installed before the first packet, each number has its first packets
dropped, one for every rule, and what is left of the rules is what was not used.
-/

namespace LossyLink

variable {σ ρ : Type}

/-- How the log names the drops of a node's packets that rules ask for. -/
def DropReason.scripted : Node → DropReason
  | .sender => .scriptedSeq
  | .receiver => .scriptedAck

/-- The rule that would drop a packet of the node. A packet of the receiver that acknowledges
nothing has none. -/
def Header.rule? (h : Header) : Node → Option DropRule
  | .sender => some ⟨.sender, h.seq⟩
  | .receiver => if h.isAck then some ⟨.receiver, h.ack⟩ else none

theorem Header.origin_of_rule? {h : Header} {node : Node} {rule : DropRule}
    (hrule : h.rule? node = some rule) : rule.origin = node := by
  cases node with
  | sender =>
    cases hrule
    rfl
  | receiver =>
    obtain ⟨-, hrule⟩ := Option.ite_none_right_eq_some.mp hrule
    cases hrule
    rfl

namespace DropRules

variable {r r' : DropRules} {node : Node} {h : Header}

/-- Each rule as often as it can still be used. -/
def toList (r : DropRules) : List DropRule :=
  r.seqs.map (DropRule.mk .sender) ++ r.acks.map (DropRule.mk .receiver)

theorem toList_of_take?_eq_some {reason : DropReason}
    (ht : r.take? node h = some (reason, r')) : reason = .scripted node ∧
      ∃ rule, h.rule? node = some rule ∧ r.toList.Perm (rule :: r'.toList) := by
  cases node with
  | sender =>
    obtain ⟨hmem, ht⟩ := Option.ite_none_right_eq_some.mp ht
    obtain ⟨rfl, rfl⟩ := Prod.mk.inj (Option.some.inj ht)
    have herase := (List.perm_cons_erase hmem).map (DropRule.mk .sender)
    exact ⟨rfl, ⟨.sender, h.seq⟩, rfl, herase.append_right _⟩
  | receiver =>
    obtain ⟨⟨hack, hmem⟩, ht⟩ := Option.ite_none_right_eq_some.mp ht
    obtain ⟨rfl, rfl⟩ := Prod.mk.inj (Option.some.inj ht)
    have herase := (List.perm_cons_erase hmem).map (DropRule.mk .receiver)
    exact ⟨rfl, ⟨.receiver, h.ack⟩, if_pos hack, (herase.append_left _).trans List.perm_middle⟩

theorem not_mem_toList_of_take?_eq_none {rule : DropRule} (ht : r.take? node h = none)
    (hrule : h.rule? node = some rule) : rule ∉ r.toList := by
  cases node with
  | sender =>
    cases hrule
    simpa [take?, toList] using ht
  | receiver =>
    obtain ⟨hack, hrule⟩ := Option.ite_none_right_eq_some.mp hrule
    cases hrule
    simpa [take?, toList, hack] using ht

end DropRules

/-- What the rules do with a packet: one of them drops it and is used up, or none matches. -/
inductive Ruling (node : Node) (h : Header) (r : DropRules) (w : Passage) (r' : DropRules) :
    Prop where
  | hit {rule : DropRule} (named : h.rule? node = some rule)
      (dropped : w = .dropped (.scripted node)) (used : r.toList.Perm (rule :: r'.toList))
  | spared (passed : w.isScripted = false)
      (unmatched : ∀ rule, h.rule? node = some rule → rule ∉ r.toList) (kept : r' = r)

theorem Passage.isScripted_scripted (node : Node) :
    (dropped (.scripted node)).isScripted = true := by
  cases node <;> rfl

theorem ruling_decision (c : Config) (r : DropRules) (g : Generator) (node : Node) (h : Header) :
    Ruling node h r (c.decision r g node h).passage (c.decision r g node h).drops := by
  unfold Config.decision
  cases ht : r.take? node h with
  | some x =>
    obtain ⟨reason, r'⟩ := x
    obtain ⟨rfl, rule, hrule, hperm⟩ := DropRules.toList_of_take?_eq_some ht
    exact .hit hrule rfl hperm
  | none =>
    apply Ruling.spared
    · exact Passage.isScripted_ofFate _
    · exact fun rule => DropRules.not_mem_toList_of_take?_eq_none ht
    · rfl

namespace Ruling

variable {node : Node} {h : Header} {r r' : DropRules} {w : Passage} {rule : DropRule}

theorem of_rule (hr : Ruling node h r w r') (hrule : h.rule? node = some rule) :
    (w = .dropped (.scripted rule.origin) ↔ 0 < r.toList.count rule) ∧
      r'.toList.count rule = r.toList.count rule - 1 := by
  rw [Header.origin_of_rule? hrule]
  rcases hr with ⟨hnamed, hdropped, hused⟩ | ⟨hpassed, hunmatched, rfl⟩
  · obtain rfl := Option.some.inj (hnamed.symm.trans hrule)
    rw [hused.count_eq, List.count_cons_self]
    exact ⟨iff_of_true hdropped (Nat.succ_pos _), rfl⟩
  · have hzero := List.count_eq_zero.mpr (hunmatched rule hrule)
    have hne : w ≠ .dropped (.scripted node) := by
      rintro rfl
      exact absurd hpassed (by simp [Passage.isScripted_scripted])
    rw [hzero]
    exact ⟨iff_of_false hne (Nat.lt_irrefl 0), rfl⟩

theorem of_other (hr : Ruling node h r w r') (hrule : h.rule? node ≠ some rule) :
    r'.toList.count rule = r.toList.count rule := by
  rcases hr with ⟨hnamed, -, hused⟩ | ⟨-, -, rfl⟩
  · rw [hused.count_eq, List.count_cons_of_ne]
    rintro rfl
    exact hrule hnamed
  · rfl

end Ruling

namespace Simulation

/-- The packets that were handed over, each with what became of it. -/
def posts (packets : List (Node × Packet)) (passages : List Passage) : List (Node × Post) :=
  packets.zipWith (fun x w => (x.1, ⟨x.2, w⟩)) passages

theorem posts_concat {packets : List (Node × Packet)} {passages : List Passage}
    (hlength : passages.length = packets.length) (node : Node) (p : Packet) (w : Passage) :
    posts (packets ++ [(node, p)]) (passages ++ [w]) =
      posts packets passages ++ [(node, ⟨p, w⟩)] := by
  unfold posts
  rw [List.zipWith_append hlength.symm]
  rfl

/-- The rules that packets used up. -/
def usedRules (xs : List (Node × Post)) : List DropRule :=
  xs.filterMap fun x => if x.2.passage.isScripted then x.2.packet.header.rule? x.1 else none

/-- What became of the packets that a rule is about, one after another. -/
def passagesFor (rule : DropRule) (xs : List (Node × Post)) : List Passage :=
  (xs.filter fun x => x.2.packet.header.rule? x.1 = some rule).map fun x => x.2.passage

section

variable {node : Node} {p : Packet} {w : Passage} {rule : DropRule} (xs : List (Node × Post))

theorem passagesFor_concat_of_rule (hrule : p.header.rule? node = some rule) :
    passagesFor rule (xs ++ [(node, ⟨p, w⟩)]) = passagesFor rule xs ++ [w] := by
  simp [passagesFor, hrule]

theorem passagesFor_concat_of_other (hrule : p.header.rule? node ≠ some rule) :
    passagesFor rule (xs ++ [(node, ⟨p, w⟩)]) = passagesFor rule xs := by
  simp [passagesFor, hrule]

theorem usedRules_concat_of_rule (hw : w.isScripted = true)
    (hrule : p.header.rule? node = some rule) :
    usedRules (xs ++ [(node, ⟨p, w⟩)]) = usedRules xs ++ [rule] := by
  simp [usedRules, hw, hrule]

theorem usedRules_concat_of_passed (hw : w.isScripted = false) :
    usedRules (xs ++ [(node, ⟨p, w⟩)]) = usedRules xs := by
  simp [usedRules, hw]

end

variable {ends : Ends σ ρ} {s s' t : Simulation σ ρ} {node : Node} {p : Packet}
  {rules : List DropRule} {packets : List (Node × Packet)}

/-- The log tells of the packets. The rules, installed at any time, are those that are left and
those that dropped a packet they are about. -/
structure Account (rules : List DropRule) (packets : List (Node × Packet))
    (s : Simulation σ ρ) : Prop where
  complete : s.reading.damaged = false
  length_eq : s.transmissions.length = packets.length
  log : s.channelLog =
    (posts packets s.transmissions).flatMap fun x => x.2.changes.map (Prod.mk x.1)
  scripted : ∀ x ∈ posts packets s.transmissions, x.2.passage.isScripted = true →
    x.2.passage = .dropped (.scripted x.1) ∧ (x.2.packet.header.rule? x.1).isSome
  left : (s.drops.toList ++ usedRules (posts packets s.transmissions)).Perm rules

theorem drops_transmit (hs : s.transmit node p = .ok s') :
    s'.drops = (s.decision node p).drops := by
  rw [transmit_eq] at hs
  obtain ⟨queue, rfl⟩ := pass_frame hs
  rfl

/-- A packet is logged with what the rules do with it. -/
theorem Account.ruling (h : Account rules packets s) (hs : s.transmit node p = .ok s') :
    ∃ w, Ruling node p.header s.drops w s'.drops ∧
      s'.reading = { passages := s.transmissions ++ [w] } ∧
      s'.channelLog = s.channelLog ++ (Post.mk p w).changes.map (Prod.mk node) ∧
      posts (packets ++ [(node, p)]) s'.transmissions =
        posts packets s.transmissions ++ [(node, ⟨p, w⟩)] := by
  have hreading := reading_transmit h.complete hs
  refine ⟨(s.decision node p).passage, ?_, hreading, channelLog_transmit hs, ?_⟩
  · rw [drops_transmit hs]
    exact ruling_decision _ _ _ _ _
  · rw [transmissions, hreading]
    exact posts_concat h.length_eq node p _

theorem Account.of_reading {rules' : List DropRule} (h : Account rules packets s)
    (hreading : t.reading = s.reading) (hlog : t.channelLog = s.channelLog)
    (hleft : (t.drops.toList ++ usedRules (posts packets s.transmissions)).Perm rules') :
    Account rules' packets t := by
  have htransmissions : t.transmissions = s.transmissions := congrArg Reading.passages hreading
  constructor
  · rw [hreading]
    exact h.complete
  · rw [htransmissions]
    exact h.length_eq
  · rw [htransmissions, hlog]
    exact h.log
  · rw [htransmissions]
    exact h.scripted
  · rw [htransmissions]
    exact hleft

theorem Account.followed (rules : List DropRule) :
    Followed (Account rules : List (Node × Packet) → Simulation σ ρ → Prop) where
  congr h hsame := h.of_reading hsame.reading hsame.log (hsame.drops ▸ h.left)
  transmit {packets s s' node p} h hs := by
    obtain ⟨w, hruling, hreading, hlog, hposts⟩ := h.ruling hs
    constructor
    · rw [hreading]
    · rw [transmissions, hreading]
      simp [h.length_eq]
    · rw [hposts, hlog, h.log, List.flatMap_append, List.flatMap_singleton]
    · intro x hx hscripted
      rw [hposts] at hx
      rcases List.mem_append.mp hx with hx | hx
      · exact h.scripted x hx hscripted
      · obtain rfl := List.mem_singleton.mp hx
        rcases hruling with ⟨hnamed, hdropped, -⟩ | ⟨hpassed, -, -⟩
        · exact ⟨hdropped, by simp [hnamed]⟩
        · exact absurd hscripted (by simp [hpassed])
    · rw [hposts]
      rcases hruling with ⟨hnamed, rfl, hused⟩ | ⟨hpassed, -, hkept⟩
      · rw [usedRules_concat_of_rule _ (Passage.isScripted_scripted node) hnamed,
          ← List.append_assoc]
        exact (List.perm_append_singleton _ _).trans ((hused.symm.append_right _).trans h.left)
      · rw [usedRules_concat_of_passed _ hpassed, hkept]
        exact h.left

theorem install_eq_ok {op : Operation} {rule : DropRule} (hop : op.rule? = some rule)
    (hs : s.operate ends op = .ok t) : t.drops.toList.Perm (rule :: s.drops.toList) ∧
      t.reading = s.reading ∧ t.channelLog = s.channelLog ∧ s.asked ends op = [] := by
  cases op with
  | arrange p =>
    cases hs
    cases p with
    | submit time data => cases hop
    | dropSeq seq =>
      cases hop
      exact ⟨.refl _, rfl, rfl, rfl⟩
    | dropAck ack =>
      cases hop
      exact ⟨List.perm_middle, rfl, rfl, rfl⟩
  | init => cases hop
  | step => cases hop
  | run limit => cases hop

theorem Account.operate {op : Operation} (h : Account rules packets s)
    (hs : s.operate ends op = .ok t) : Account (rules ++ op.rule?.toList)
      (packets ++ (s.asked ends op).filterMap Demand.packet?) t := by
  cases hop : op.rule? with
  | none =>
    rw [Option.toList_none, List.append_nil]
    exact (Account.followed rules).operate hop h hs
  | some rule =>
    obtain ⟨hdrops, hreading, hlog, hasked⟩ := install_eq_ok hop hs
    rw [hasked, List.filterMap_nil, List.append_nil, Option.toList_some]
    have hleft := (hdrops.append_right _).trans (h.left.cons rule)
    exact h.of_reading hreading hlog (hleft.trans (List.perm_append_singleton rule rules).symm)

theorem Account.operateAll {ops : List Operation} (h : Account rules packets s)
    (hs : s.operateAll ends ops = .ok t) :
    Account (rules ++ ops.filterMap Operation.rule?) (packets ++ s.handed ends ops) t := by
  unfold Simulation.operateAll at hs
  induction ops generalizing s rules packets with
  | nil =>
    cases hs
    simpa [handed] using h
  | cons op ops ih =>
    rw [List.foldlM_cons] at hs
    obtain ⟨u, hu, hs⟩ := exists_of_bind_eq_ok hs
    have hrest := ih (h.operate hu) hs
    rw [handed_cons hu, List.filterMap_cons, ← List.append_assoc]
    cases hop : op.rule? with
    | none => simpa [hop] using hrest
    | some rule => simpa [hop] using hrest

theorem Account.create {config : Config} (hs : create config ends = .ok s) :
    Account [] [] s := by
  obtain ⟨-, rfl⟩ := create_eq_ok_iff.mp hs
  constructor
  · rfl
  · rfl
  · rfl
  · intro x hx
    cases hx
  · exact .refl _

/-- The rules were there before the packets. Every rule dropped the first packet that it could,
and it is left as often as there were too few packets for it. -/
structure Hits (rules : List DropRule) (packets : List (Node × Packet))
    (s : Simulation σ ρ) : Prop extends Account rules packets s where
  dropped_iff : ∀ (rule : DropRule) (j : Nat) (w : Passage),
    (passagesFor rule (posts packets s.transmissions))[j]? = some w →
      (w = .dropped (.scripted rule.origin) ↔ j < rules.count rule)
  count_left : ∀ rule, s.drops.toList.count rule =
    rules.count rule - (passagesFor rule (posts packets s.transmissions)).length

theorem Hits.followed (rules : List DropRule) :
    Followed (Hits rules : List (Node × Packet) → Simulation σ ρ → Prop) where
  congr h hsame := by
    constructor
    · exact (Account.followed rules).congr h.toAccount hsame
    · rw [transmissions, hsame.reading]
      exact h.dropped_iff
    · rw [transmissions, hsame.reading, hsame.drops]
      exact h.count_left
  transmit {packets s s' node p} h hs := by
    obtain ⟨w, hruling, -, -, hposts⟩ := h.toAccount.ruling hs
    constructor
    · exact (Account.followed rules).transmit h.toAccount hs
    · intro rule j v hv
      rw [hposts] at hv
      by_cases hrule : p.header.rule? node = some rule
      · rw [passagesFor_concat_of_rule _ hrule] at hv
        rcases getElem?_concat_eq_some hv with ⟨-, hv⟩ | ⟨rfl, rfl⟩
        · exact h.dropped_iff rule j v hv
        · -- the packet of now is the next one that the rule is about
          rw [(hruling.of_rule hrule).1, h.count_left]
          omega
      · rw [passagesFor_concat_of_other _ hrule] at hv
        exact h.dropped_iff rule j v hv
    · intro rule
      rw [hposts]
      by_cases hrule : p.header.rule? node = some rule
      · rw [passagesFor_concat_of_rule _ hrule, List.length_append, (hruling.of_rule hrule).2,
          h.count_left, Nat.sub_sub]
        rfl
      · rw [passagesFor_concat_of_other _ hrule, hruling.of_other hrule, h.count_left]

theorem Hits.of_account (h : Account rules [] s) : Hits rules [] s := by
  constructor
  · exact h
  · intro rule j w hw
    cases hw
  · intro rule
    have hperm : s.drops.toList.Perm rules := by
      have hleft := h.left
      rwa [posts, List.zipWith_nil_left, usedRules, List.filterMap_nil, List.append_nil] at hleft
    exact hperm.count_eq rule

/-- All rules are installed before the first packet is handed over. The log then tells of the
packets one after another, and a packet is dropped by a rule just if there are as many rules for
its number as packets with this number up to it. Packets of the receiver that acknowledge nothing
are not dropped by rules and use none. The rules that are left are those installed without those
that dropped a packet. -/
theorem rules_hit_first_matches {config : Config} {u : Simulation σ ρ}
    {setup rest : List Operation} (hs : create config ends = .ok s)
    (hsetup : s.operateAll ends setup = .ok t) (hnone : t.transmissions = [])
    (hrest : ∀ op ∈ rest, op.rule? = none) (h : t.operateAll ends rest = .ok u) :
    u.transmissions.length = (t.handed ends rest).length ∧
    u.channelLog = (posts (t.handed ends rest) u.transmissions).flatMap
      (fun x => x.2.changes.map (Prod.mk x.1)) ∧
    (∀ (rule : DropRule) (j : Nat) (w : Passage),
      (passagesFor rule (posts (t.handed ends rest) u.transmissions))[j]? = some w →
        (w = .dropped (.scripted rule.origin) ↔
          j < (setup.filterMap Operation.rule?).count rule)) ∧
    (∀ x ∈ posts (t.handed ends rest) u.transmissions, x.2.passage.isScripted = true →
      x.2.passage = .dropped (.scripted x.1) ∧ (x.2.packet.header.rule? x.1).isSome) ∧
    (u.drops.toList ++ usedRules (posts (t.handed ends rest) u.transmissions)).Perm
      (setup.filterMap Operation.rule?) := by
  have hinstalled := (Account.create hs).operateAll hsetup
  have hhanded : s.handed ends setup = [] := by
    have hlength := hinstalled.length_eq
    rw [hnone, List.nil_append] at hlength
    exact List.length_eq_zero_iff.mp hlength.symm
  rw [hhanded] at hinstalled
  have hhits := (Hits.followed _).operateAll hrest (Hits.of_account hinstalled) h
  exact ⟨hhits.length_eq, hhits.log, hhits.dropped_iff, hhits.scripted, hhits.left⟩

/-- Two rules for the sender's number zero, with one for an acknowledgement between them and
one that no packet meets. -/
theorem rules_hit_first_matches_over_noisy_link :
    ∃ t u, (fresh (noisy 10 90) AlternatingBit.ends).operateAll AlternatingBit.ends
        [.arrange (.submit 0 [1, 2]), .arrange (.dropSeq 0), .arrange (.dropAck 0),
          .arrange (.dropSeq 0), .arrange (.dropSeq 7)] = .ok t ∧
      t.operateAll AlternatingBit.ends [.run 100] = .ok u ∧
      passagesFor ⟨.sender, 0⟩ (posts (t.handed AlternatingBit.ends [.run 100]) u.transmissions) =
        [.dropped .scriptedSeq, .dropped .scriptedSeq, .carried true 47, .carried true 31] ∧
      (∀ (j : Nat) (w : Passage), [.dropped .scriptedSeq, .dropped .scriptedSeq,
        .carried true 47, .carried true 31][j]? = some w → (w = .dropped .scriptedSeq ↔ j < 2)) ∧
      List.Perm (u.drops.toList ++ [⟨.sender, 0⟩, ⟨.sender, 0⟩, ⟨.receiver, 0⟩])
        [⟨.sender, 0⟩, ⟨.receiver, 0⟩, ⟨.sender, 0⟩, ⟨.sender, 7⟩] := by
  have hrun : ((fresh (noisy 10 90) AlternatingBit.ends).operateAll AlternatingBit.ends
      [.arrange (.submit 0 [1, 2]), .arrange (.dropSeq 0), .arrange (.dropAck 0),
        .arrange (.dropSeq 0), .arrange (.dropSeq 7)] >>= fun t =>
      (t.operateAll AlternatingBit.ends [.run 100]).map fun u =>
        (t.transmissions, passagesFor ⟨.sender, 0⟩ (posts
            (t.handed AlternatingBit.ends [.run 100]) u.transmissions),
          usedRules (posts (t.handed AlternatingBit.ends [.run 100]) u.transmissions))) =
      .ok ([], [.dropped .scriptedSeq, .dropped .scriptedSeq, .carried true 47,
        .carried true 31], [⟨.sender, 0⟩, ⟨.sender, 0⟩, ⟨.receiver, 0⟩]) := by
    decide +kernel
  obtain ⟨t, ht, hrun⟩ := exists_of_bind_eq_ok hrun
  obtain ⟨u, hu, hrun⟩ := exists_of_map_eq_ok hrun
  obtain ⟨hnone, hrun⟩ := Prod.mk.inj hrun
  obtain ⟨hpassages, hused⟩ := Prod.mk.inj hrun
  have hle : 10 ≤ 90 := by decide
  obtain ⟨-, -, hhits, -, hleft⟩ := rules_hit_first_matches (create_noisy hle) ht hnone
    (by decide) hu
  have hfirst := hhits ⟨.sender, 0⟩
  rw [hpassages] at hfirst
  rw [hused] at hleft
  exact ⟨t, u, ht, hu, hpassages, hfirst, hleft⟩

end Simulation

end LossyLink
