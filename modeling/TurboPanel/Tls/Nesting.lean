import TurboPanel.Tls.Asn1

/-!
# Nodes in nodes

When the reading of an array is well nested (`ReadsWell`): every node it answers lies in the array,
and the children of every node end and lie side by side in its content. Two kinds of arrays break
it. A length of `2 ^ 31` or more comes out negative, and the node ends before it starts
(`HugeLength`); and a child is only held to the array, so it may run past its parent. Without these
two the reading is well nested, and with one of them it is not (`reading_well_nested_iff`).
-/

namespace TurboPanel.Tls

open Js

/-! ## The property -/

/-- The node lies in the array behind its offset. -/
def LiesIn (bytes : Bytes) (p : ℕ) (node : Asn1Node) : Prop :=
  ∃ e, node.endOffset = some e ∧ (p : ℤ) < node.contentOffset ∧ node.contentOffset ≤ e ∧
    e ≤ bytes.length

/-- The nodes lie side by side from `start` to `stop`. -/
def SideBySide (start stop : ℤ) : List Asn1Node → Prop
  | [] => start = stop
  | node :: rest => node.contentOffset - node.headerLength = start ∧
      ∃ e, node.endOffset = some e ∧ start < e ∧ SideBySide e stop rest

/-- The node's tag says that it has children. -/
def Asn1Node.Constructed (node : Asn1Node) : Prop := and32 (toNumber node.tag) 0x20 ≠ 0

/-- The children tile the content of the node; a primitive node has none. -/
def Tile (node : Asn1Node) (nodes : List Asn1Node) : Prop :=
  (node.Constructed → ∃ e, node.endOffset = some e ∧ SideBySide node.contentOffset e nodes) ∧
    (¬node.Constructed → nodes = [])

/-- The reading of an array is well nested, and it ends. -/
structure ReadsWell (bytes : Bytes) : Prop where
  lies : ∀ (p : ℕ) node, readNode bytes p = .ok node → LiesIn bytes p node
  tiled : ∀ (p : ℕ) node, readNode bytes p = .ok node →
    ∃ steps result, childrenWithin steps node = some result ∧
      ∀ nodes, result = .ok nodes → Tile node nodes

/-! ## The condition -/

/-- The array writes a length of `2 ^ 31` or more at `p`. -/
def HugeLength (bytes : Bytes) (p : ℕ) : Prop :=
  ∃ t header length, Header (bytes.drop p) t header length ∧ 2147483648 ≤ length

/-- At `p` there is a whole node of the array, with its content from `q` to `e`. -/
def WholeNode (bytes : Bytes) (p : ℕ) (t : UInt8) (q e : ℕ) : Prop :=
  ∃ header length, Header (bytes.drop p) t header length ∧ q = p + header ∧ e = q + length ∧
    e ≤ bytes.length

/-- From `q` there are whole nodes end to end up to `r`, each of which starts before `stop`. -/
inductive EndToEnd (bytes : Bytes) (stop : ℕ) (q : ℕ) : ℕ → Prop
  | start : EndToEnd bytes stop q q
  | next {p : ℕ} {t : UInt8} {q' e : ℕ} (before : EndToEnd bytes stop q p) (lt : p < stop)
      (node : WholeNode bytes p t q' e) : EndToEnd bytes stop q e

/-- In the content of a constructed node, one of the nodes that lie end to end runs past its end. -/
def Overruns (bytes : Bytes) : Prop :=
  ∃ p t q stop, WholeNode bytes p t q stop ∧ t.toNat.testBit 5 = true ∧
    ∃ r, EndToEnd bytes stop q r ∧ r < stop ∧ ∃ t' q' e, WholeNode bytes r t' q' e ∧ stop < e

section

variable {bytes : Bytes} {p : ℕ}

theorem bmod_eq_sub {n m : ℕ} (h : m ≤ 2 * n) (hlt : n < m) : (n : ℤ).bmod m = n - m := by
  rw [Int.bmod_def, Int.emod_eq_of_lt (by omega) (by omega), if_neg (by omega)]

theorem signedLength_neg {length : ℕ} (h : 2147483648 ≤ length) (hlt : length < 4294967296) :
    signedLength length < 0 := by
  have hsub : signedLength length = length - (4294967296 : ℕ) := bmod_eq_sub (by omega) hlt
  omega

theorem nodeAt_constructed {t : UInt8} {header length : ℕ} :
    (nodeAt bytes p t header length).Constructed ↔ t.toNat.testBit 5 = true := by
  rw [Asn1Node.Constructed, nodeAt, toNumber, Option.getD_some, show (0x20 : ℤ) = 2 ^ 5 by norm_num,
    Ne, and32_two_pow _ (by decide), Bool.not_eq_false]

theorem childrenWithin_of_constructed {node : Asn1Node} (h : node.Constructed) (steps : ℕ) :
    childrenWithin steps node = childrenLoop node steps (some node.contentOffset) [] :=
  if_neg h

theorem childrenWithin_of_primitive {node : Asn1Node} (h : ¬node.Constructed) (steps : ℕ) :
    childrenWithin steps node = some (.ok []) :=
  if_pos (not_not.1 h)

theorem childrenLoop_of_lt {node : Asn1Node} {steps : ℕ} {o e : ℤ} {out : List Asn1Node}
    (hend : node.endOffset = some e) (h : o < e) : childrenLoop node (steps + 1) (some o) out =
      match readNode node.bytes o with
      | .error e => some (.error e)
      | .ok child => childrenLoop node steps child.endOffset (out ++ [child]) := by
  rw [childrenLoop.eq_def, hend]
  exact if_pos h

theorem childrenLoop_of_le {node : Asn1Node} {steps : ℕ} {o e : ℤ} {out : List Asn1Node}
    (hend : node.endOffset = some e) (h : e ≤ o) :
    childrenLoop node (steps + 1) (some o) out = some (.ok out) := by
  simp only [childrenLoop, hend, if_neg (not_lt.2 h)]

/-! ## Arrays without huge lengths -/

theorem readNode_eq_ok_iff_of_small (hsmall : ¬HugeLength bytes p) {node : Asn1Node} :
    readNode bytes p = .ok node ↔ ∃ t header length, Header (bytes.drop p) t header length ∧
      p + header + length ≤ bytes.length ∧ signedLength length = length ∧
        node = nodeAt bytes p t header length := by
  rw [readNode_eq_ok_iff]
  constructor
  · rintro ⟨t, header, length, hheader, hle, rfl⟩
    have hlt : length < 2147483648 := not_le.1 fun h => hsmall ⟨t, header, length, hheader, h⟩
    rw [signedLength_of_lt hlt] at hle
    exact ⟨t, header, length, hheader, by omega, signedLength_of_lt hlt, rfl⟩
  · rintro ⟨t, header, length, hheader, hle, hsigned, rfl⟩
    exact ⟨t, header, length, hheader, by rw [hsigned]; omega, rfl⟩

theorem readNode_wholeNode (hsmall : ¬HugeLength bytes p) {t : UInt8} {q e : ℕ}
    (h : WholeNode bytes p t q e) : ∃ node, readNode bytes p = .ok node ∧
      node.contentOffset - node.headerLength = p ∧ node.contentOffset = q ∧
        node.endOffset = some (e : ℤ) ∧ node.bytes = bytes ∧
          (node.Constructed ↔ t.toNat.testBit 5 = true) := by
  obtain ⟨header, length, hheader, rfl, rfl, hle⟩ := h
  have hlt : length < 2147483648 := not_le.1 fun h => hsmall ⟨t, header, length, hheader, h⟩
  refine ⟨nodeAt bytes p t header length, (readNode_eq_ok_iff_of_small hsmall).2
    ⟨t, header, length, hheader, hle, signedLength_of_lt hlt, rfl⟩, ?_, ?_, ?_, rfl, nodeAt_constructed⟩
  · change (p + header - header : ℤ) = p
    omega
  · change (p + header : ℤ) = (p + header : ℕ)
    omega
  · rw [nodeAt, signedLength_of_lt hlt]
    push_cast
    rfl

theorem exists_wholeNode (hsmall : ¬HugeLength bytes p) {node : Asn1Node}
    (h : readNode bytes p = .ok node) : ∃ t q e, WholeNode bytes p t q e ∧ p < q ∧ q ≤ e ∧
      node.contentOffset - node.headerLength = p ∧ node.contentOffset = q ∧
        node.endOffset = some (e : ℤ) ∧ node.bytes = bytes ∧
          (node.Constructed ↔ t.toNat.testBit 5 = true) := by
  obtain ⟨t, header, length, hheader, hle, -, -⟩ := (readNode_eq_ok_iff_of_small hsmall).1 h
  have hnode : WholeNode bytes p t (p + header) (p + header + length) :=
    ⟨header, length, hheader, rfl, rfl, hle⟩
  obtain ⟨node', hread, hrest⟩ := readNode_wholeNode hsmall hnode
  cases h.symm.trans hread
  exact ⟨t, _, _, hnode, by have := hheader.bounds; omega, by omega, hrest⟩

variable (hsmall : ∀ p, ¬HugeLength bytes p) {node : Asn1Node} (hbytes : node.bytes = bytes)
  {q stop : ℕ} (hend : node.endOffset = some (stop : ℤ))

include hsmall hbytes hend

/-- **The loop ends**, and what it adds lies side by side up to the end of the node, unless a node
on the way runs past it. -/
theorem childrenLoop_ends (hfit : ∀ r, EndToEnd bytes stop q r → r < stop → ∀ t' q' e,
      WholeNode bytes r t' q' e → e ≤ stop) :
    ∀ (steps o : ℕ) (out : List Asn1Node), EndToEnd bytes stop q o → o ≤ stop → stop - o < steps →
      ∃ result, childrenLoop node steps (some (o : ℤ)) out = some result ∧
        ∀ nodes, result = .ok nodes → ∃ new, nodes = out ++ new ∧ SideBySide o stop new := by
  intro steps
  induction steps with
  | zero => intro o out _ _ hsteps; omega
  | succ steps ih =>
    intro o out hreach hle hsteps
    by_cases hlt : o < stop
    · rw [childrenLoop_of_lt hend (by omega), hbytes]
      cases hread : readNode bytes o with
      | error err => exact ⟨.error err, rfl, nofun⟩
      | ok child =>
        obtain ⟨t, q', e, hwhole, hpos, hqe, hstart, -, hchild, -⟩ := exists_wholeNode (hsmall o) hread
        have hestop := hfit o hreach hlt t q' e hwhole
        obtain ⟨result, hresult, hnodes⟩ :=
          ih e (out ++ [child]) (hreach.next hlt hwhole) hestop (by omega)
        refine ⟨result, by rw [← hresult, ← hchild], fun nodes hok => ?_⟩
        obtain ⟨new, rfl, hnew⟩ := hnodes nodes hok
        exact ⟨child :: new, by simp, hstart, e, hchild, by omega, hnew⟩
    · obtain rfl : o = stop := by omega
      rw [childrenLoop_of_le hend le_rfl]
      exact ⟨.ok out, rfl, fun nodes hok => ⟨[], by simpa using (Except.ok.inj hok).symm, rfl⟩⟩

theorem childrenLoop_reaches {r : ℕ} (h : EndToEnd bytes stop q r) {steps : ℕ}
    {result : Except Asn1Error (List Asn1Node)}
    (hresult : childrenLoop node steps (some (q : ℤ)) [] = some result) :
    ∃ steps' out, childrenLoop node steps' (some (r : ℤ)) out = some result := by
  induction h with
  | start => exact ⟨steps, [], hresult⟩
  | @next p t q' e before hlt hwhole ih =>
    obtain ⟨steps', out, hloop⟩ := ih
    cases steps' with
    | zero => cases hloop
    | succ steps' =>
      obtain ⟨child, hread, -, -, hchild, -⟩ := readNode_wholeNode (hsmall p) hwhole
      rw [childrenLoop_of_lt hend (by omega), hbytes, hread] at hloop
      dsimp only at hloop
      rw [hchild] at hloop
      exact ⟨steps', out ++ [child], hloop⟩

end

/-! ## Exactly then -/

theorem SideBySide.endOffset_le {start stop : ℤ} {nodes : List Asn1Node}
    (h : SideBySide start stop nodes) : start ≤ stop ∧
      ∀ node ∈ nodes, ∃ e, node.endOffset = some e ∧ e ≤ stop := by
  induction nodes generalizing start with
  | nil => exact ⟨le_of_eq h, nofun⟩
  | cons node nodes ih =>
    obtain ⟨-, e, hend, hlt, hrest⟩ := h
    obtain ⟨hle, hall⟩ := ih hrest
    refine ⟨by omega, fun node' hmem => ?_⟩
    rcases List.mem_cons.1 hmem with rfl | hmem
    · exact ⟨e, hend, hle⟩
    · exact hall node' hmem

/-- **When DER reading is well nested.** For every array: every node read lies in the array, and the
children of every node end and tile its content, if and only if the array writes no length of `2 ^
31` or more and no child runs past its parent. -/
theorem reading_well_nested_iff (bytes : Bytes) :
    ReadsWell bytes ↔ (∀ p, ¬HugeLength bytes p) ∧ ¬Overruns bytes := by
  constructor
  · intro h
    have hsmall : ∀ p, ¬HugeLength bytes p := by
      rintro p ⟨t, header, length, hheader, hhuge⟩
      have hbounds := hheader.bounds
      have hneg := signedLength_neg hhuge hbounds.2.2
      rw [List.length_drop] at hbounds
      obtain ⟨e, hend, -, hle, -⟩ := h.lies p _
        (readNode_eq_ok_iff.2 ⟨t, header, length, hheader, by omega, rfl⟩)
      obtain rfl := Option.some.inj hend
      rw [nodeAt] at hle
      dsimp only at hle
      omega
    refine ⟨hsmall, ?_⟩
    rintro ⟨p, t, q, stop, hwhole, hconstructed, r, hreach, hlt, t', q', e, hchild, hover⟩
    obtain ⟨node, hread, -, hoffset, hend, hbytes, htag⟩ := readNode_wholeNode (hsmall p) hwhole
    obtain ⟨steps, result, hresult, htile⟩ := h.tiled p node hread
    rw [childrenWithin_of_constructed (htag.2 hconstructed), hoffset] at hresult
    obtain ⟨steps', out, hloop⟩ := childrenLoop_reaches hsmall hbytes hend hreach hresult
    obtain ⟨child, hread', -, -, hchildEnd, -⟩ := readNode_wholeNode (hsmall r) hchild
    cases steps' with
    | zero => cases hloop
    | succ steps' =>
      rw [childrenLoop_of_lt hend (by omega), hbytes, hread'] at hloop
      dsimp only at hloop
      rw [hchildEnd] at hloop
      cases steps' with
      | zero => cases hloop
      | succ steps' =>
        rw [childrenLoop_of_le hend (by omega)] at hloop
        obtain ⟨stop', hend', hside⟩ := (htile _ (Option.some.inj hloop).symm).1 (htag.2 hconstructed)
        cases hend.symm.trans hend'
        obtain ⟨e', hend'', hle⟩ := hside.endOffset_le.2 child (by simp)
        cases hchildEnd.symm.trans hend''
        omega
  · rintro ⟨hsmall, hover⟩
    constructor
    · intro p node hread
      obtain ⟨t, q, e, ⟨header, length, -, -, -, hle⟩, hpos, hqe, -, hoffset, hend, -⟩ :=
        exists_wholeNode (hsmall p) hread
      exact ⟨e, hend, by omega, by omega, by omega⟩
    · intro p node hread
      obtain ⟨t, q, stop, hwhole, hpos, hqe, -, hoffset, hend, hbytes, htag⟩ :=
        exists_wholeNode (hsmall p) hread
      by_cases hconstructed : node.Constructed
      · have hfit : ∀ r, EndToEnd bytes stop q r → r < stop → ∀ t' q' e, WholeNode bytes r t' q' e →
            e ≤ stop := fun r hreach hlt t' q' e hchild => not_lt.1 fun hgt =>
          hover ⟨p, t, q, stop, hwhole, htag.1 hconstructed, r, hreach, hlt, t', q', e, hchild, hgt⟩
        obtain ⟨result, hresult, hnodes⟩ := childrenLoop_ends hsmall hbytes hend hfit (stop - q + 1) q []
          .start hqe (by omega)
        refine ⟨stop - q + 1, result, ?_, fun nodes hok => ⟨fun _ => ⟨stop, hend, ?_⟩, absurd hconstructed⟩⟩
        · rw [childrenWithin_of_constructed hconstructed, hoffset, hresult]
        · obtain ⟨new, rfl, hnew⟩ := hnodes nodes hok
          rw [hoffset]
          exact hnew
      · exact ⟨0, .ok [], childrenWithin_of_primitive hconstructed 0, fun nodes hok =>
          ⟨fun h => absurd h hconstructed, fun _ => (Except.ok.inj hok).symm⟩⟩

/-- A child whose length is minus six, so that its end is its start. -/
def backwardsChild : Bytes := [0x30, 0x06, 0x02, 0x84, 0xff, 0xff, 0xff, 0xfa]

/-- A child of negative length is read for ever. -/
theorem backwards_child_not_readsWell : ¬∀ bytes, ReadsWell bytes := by
  intro h
  obtain ⟨e, hend, -, hle, -⟩ := (h backwardsChild).lies 2 _ rfl
  cases hend
  cases hle

end TurboPanel.Tls
