import Mathlib.Data.BitVec
import GtpLibrary.K8s.Nodes

/-!
# The addresses of the nodes agree

An address is read as its network and its last number. As long as the numbers that the shell
computes fit in 64 bits, the three countings give the nodes the same addresses, and the ranges
that `config-generic-box` compares with are those of the control planes and of the workers.
-/

namespace GtpLibrary.K8s

open Lib.Numerals

section
variable {a b c n : Nat} {q : DottedQuad} {controlCount workerCount : Nat} {node : Node} {succeeds : Role → Bool}

/-! ## Texts of addresses -/

/-- The first three numbers with their dots. -/
def network (a b c : Nat) : Text := dotted [a, b, c] ++ ['.']

theorem dotted_network (a b c n : Nat) : dotted [a, b, c, n] = network a b c ++ numeral n := by
  unfold network
  rw [List.append_assoc]
  exact dotted_concat (List.cons_ne_nil a [b, c]) n

theorem awkField_dotted (a b c n : Nat) : awkField 4 (dotted [a, b, c, n]) = numeral n := by
  unfold awkField
  rw [splitOn_dotted (List.cons_ne_nil a [b, c, n])]
  rfl

theorem awkNet_dotted (a b c n : Nat) : awkNet (dotted [a, b, c, n]) = network a b c := by
  unfold awkNet awkField
  rw [splitOn_dotted (List.cons_ne_nil a [b, c, n])]
  simp [network, dotted, List.intercalate_cons_cons]

theorem ipSections_dotted (a b c n : Nat) : ipSections (dotted [a, b, c, n]) = some (network a b c, numeral n) := by
  have digits : ∀ ch ∈ (numeral n).reverse, decide (ch ≠ '.') = true := by
    intro ch member
    rw [List.mem_reverse] at member
    exact decide_eq_true fun dot => not_mem_numeral (by decide) n (dot ▸ member)
  have front : (dotted [a, b, c, n]).rdropWhile (· ≠ '.') = network a b c := by
    rw [dotted_network, List.rdropWhile, List.reverse_append, List.dropWhile_append_of_pos digits, network,
      List.reverse_append]
    simp
  have last : (dotted [a, b, c, n]).rtakeWhile (· ≠ '.') = numeral n := by
    rw [dotted_network, List.rtakeWhile, List.reverse_append, List.takeWhile_append_of_pos digits, network,
      List.reverse_append]
    simp
  have long : 2 ≤ (network a b c).length := by
    unfold network
    rw [dotted, List.map_cons, List.map_cons, List.intercalate_cons_cons]
    simp
    omega
  have plain : ((network a b c).all fun ch => ch.isDigit || ch = '.') = true := by
    rw [List.all_eq_true]
    intro ch member
    rcases List.mem_append.1 member with inside | dot
    · simpa using mem_dotted inside
    · rw [List.mem_singleton.1 dot]
      rfl
  unfold ipSections
  rw [front, last]
  exact if_pos ⟨long, plain, numeral_ne_nil n⟩

/-! ## Numbers of the shell -/

theorem operand_numeral (n : Nat) : operand (numeral n) = BitVec.ofInt 64 n := by
  unfold operand
  rw [number_numeral, BitVec.ofInt_natCast]
  rfl

theorem ofInt_sub_one (x : Int) : BitVec.ofInt 64 x - 1 = BitVec.ofInt 64 (x - 1) := by
  rw [Int.sub_eq_add_neg, BitVec.ofInt_add, BitVec.ofInt_neg, BitVec.sub_eq_add_neg]
  rfl

theorem testOperand_printed (x : BitVec 64) : testOperand (printed x) = some x.toInt := by
  have low := BitVec.le_toInt x
  have high := BitVec.toInt_lt (x := x)
  unfold testOperand printed
  rw [integer_signed, Option.filter_some, if_pos]
  simp only [Bool.and_eq_true, decide_eq_true_eq]
  omega

theorem testOperand_numeral (small : n < 2 ^ 63) : testOperand (numeral n) = some (n : Int) := by
  unfold testOperand
  rw [integer_numeral, Option.filter_some, if_pos]
  simp only [Bool.and_eq_true, decide_eq_true_eq]
  omega

/-- `config-generic-box` on the machine whose address ends in `n`. -/
theorem configGenericBox_dotted (q : DottedQuad) (controlCount workerCount : Nat) (small : n < 2 ^ 63)
    (succeeds : Role → Bool) :
    configGenericBox ⟨q.text, controlCount, workerCount⟩ (dotted [q.a, q.b, q.c, n]) succeeds =
      runChain succeeds [
        (n = q.d.val, .controlPlaneFirst),
        (q.d.val + 1 ≤ n && (n : Int) ≤ (BitVec.ofInt 64 (q.d - 1 + controlCount)).toInt, .controlPlaneSubsequent),
        ((BitVec.ofInt 64 (q.d + controlCount)).toInt ≤ n &&
          (n : Int) ≤ (BitVec.ofInt 64 (q.d - 1 + controlCount + workerCount)).toInt, .worker)] := by
  have octet := q.d.isLt
  have next : (BitVec.ofInt 64 q.d.val + 1).toInt = q.d.val + 1 := by
    rw [show (1 : BitVec 64) = BitVec.ofInt 64 1 from rfl, ← BitVec.ofInt_add]
    apply BitVec.toInt_ofInt_eq_self (by decide)
    · omega
    · omega
  unfold configGenericBox DottedQuad.text
  rw [if_neg (by rw [awkNet_dotted, awkNet_dotted]; exact fun different => different rfl)]
  simp only [awkField_dotted, operand_numeral, ofInt_sub_one, ← BitVec.ofInt_add, testEq, testLe, testOperand_printed,
    testOperand_numeral small, testOperand_numeral (show q.d.val < 2 ^ 63 by omega), Option.any_some, next]
  norm_cast

/-! ## The nodes -/

theorem mem_nodes : node ∈ nodes controlCount workerCount ↔
    (∃ i, 1 ≤ i ∧ i ≤ controlCount ∧ node = .controlPlane i) ∨ ∃ i, 1 ≤ i ∧ i ≤ workerCount ∧ node = .worker i := by
  have inRange : ∀ {i m : Nat}, i ∈ List.range' 1 m ↔ 1 ≤ i ∧ i ≤ m := by
    intro i m
    rw [List.mem_range'_1]
    omega
  unfold nodes
  rw [List.mem_append, List.mem_map, List.mem_map]
  simp only [inRange, and_assoc, eq_comm]

/-- The addresses lie side by side from `control_ip` on. -/
theorem offsets_nodes (controlCount workerCount : Nat) :
    (nodes controlCount workerCount).map (Node.offset controlCount) = List.range (controlCount + workerCount) := by
  unfold nodes
  rw [List.map_append, List.map_map, List.map_map, List.range'_eq_map_range, List.range'_eq_map_range, List.map_map,
    List.map_map, List.range_add]
  congr 1
  · refine (List.map_congr_left fun i _ => ?_).trans (List.map_id _)
    exact Nat.add_sub_cancel_left ..
  · apply List.map_congr_left
    intro i _
    show controlCount + (1 + i) - 1 = controlCount + i
    omega

theorem address_injective (q : DottedQuad) : Function.Injective fun k => dotted [q.a, q.b, q.c, q.d + k] := by
  intro k m same
  simp only [dotted_network] at same
  exact Nat.add_left_cancel (numeral_injective (List.append_cancel_left same))

theorem addresses_nodup (q : DottedQuad) (controlCount workerCount : Nat) :
    (((nodes controlCount workerCount).map (Node.machine q controlCount)).map Machine.ip).Nodup := by
  have addresses : ((nodes controlCount workerCount).map (Node.machine q controlCount)).map Machine.ip =
      ((nodes controlCount workerCount).map (Node.offset controlCount)).map fun k => dotted [q.a, q.b, q.c, q.d + k] := by
    rw [List.map_map, List.map_map]
    rfl
  rw [addresses, offsets_nodes]
  exact List.nodup_range.map (address_injective q)

/-! ## `Vagrantfile` and `/etc/hosts` -/

theorem vagrantMachines_eq (q : DottedQuad) (control : 1 ≤ controlCount) :
    vagrantMachines ⟨q.text, controlCount, workerCount⟩ =
      some ((nodes controlCount workerCount).map (Node.machine q controlCount)) := by
  obtain ⟨others, rfl⟩ : ∃ others, controlCount = others + 1 := ⟨controlCount - 1, by omega⟩
  have address : ∀ (x : Int) (m : Nat), x = m → network q.a q.b q.c ++ signed x = dotted [q.a, q.b, q.c, m] := by
    rintro x m rfl
    rw [dotted_network, signed_natCast]
  unfold vagrantMachines DottedQuad.text nodes
  rw [ipSections_dotted]
  simp only [Option.bind_eq_bind, Option.bind_some, number_numeral, Option.pure_def, Option.some.injEq, List.map_append,
    List.map_map, Nat.add_sub_cancel, List.range'_succ, List.map_cons]
  congr 2
  · apply List.map_congr_left
    intro i member
    have positive := (List.mem_range'_1.1 member).1
    show Machine.mk _ _ = Machine.mk _ _
    rw [address _ (q.d + (i - 1)) (by omega)]
    rfl
  · funext i
    show Machine.mk _ _ = Machine.mk _ _
    rw [address _ (q.d + (others + 1 + i - 1)) (by omega)]
    rfl

theorem hostsLines_eq (q : DottedQuad) (fits : q.d + controlCount + workerCount ≤ 2 ^ 63) :
    hostsLines ⟨q.text, controlCount, workerCount⟩ =
      ((nodes controlCount workerCount).map (Node.machine q controlCount)).map Machine.hostsLine := by
  have line : ∀ (x : Int) (m : Nat) (name : Text), x = m → m < 2 ^ 63 →
      network q.a q.b q.c ++ printed (BitVec.ofInt 64 x) ++ ' ' :: name =
        Machine.hostsLine ⟨name, dotted [q.a, q.b, q.c, m]⟩ := by
    rintro x m name rfl small
    unfold printed Machine.hostsLine
    rw [BitVec.toInt_ofInt_eq_self (by decide) (by omega) (by omega), signed_natCast, dotted_network]
  unfold hostsLines DottedQuad.text nodes seq
  simp only [awkNet_dotted, awkField_dotted, operand_numeral, ofInt_sub_one, ← BitVec.ofInt_add, List.map_append,
    List.map_map]
  congr 1
  · apply List.map_congr_left
    intro i member
    have inside := List.mem_range'_1.1 member
    simp only [Function.comp_apply, operand_numeral, ← BitVec.ofInt_add, List.append_assoc]
    rw [← List.append_assoc]
    exact line _ (q.d + (i - 1)) ("control-plane-".toList ++ numeral i) (by omega) (by omega)
  · apply List.map_congr_left
    intro i member
    have inside := List.mem_range'_1.1 member
    simp only [Function.comp_apply, operand_numeral, ← BitVec.ofInt_add, List.append_assoc]
    rw [← List.append_assoc]
    exact line _ (q.d + (controlCount + i - 1)) ("worker-".toList ++ numeral i) (by omega) (by omega)

/-! ## Roles -/

/-- The three tests by the distance of the machine from `control_ip`. -/
theorem configGenericBox_offset (q : DottedQuad) (fits : q.d + controlCount + max workerCount 1 ≤ 2 ^ 63)
    (inside : k < controlCount + workerCount) (succeeds : Role → Bool) :
    configGenericBox ⟨q.text, controlCount, workerCount⟩ (dotted [q.a, q.b, q.c, q.d + k]) succeeds =
      runChain succeeds [
        (k = 0, .controlPlaneFirst),
        (1 ≤ k && k < controlCount, .controlPlaneSubsequent),
        (controlCount ≤ k && k < controlCount + workerCount, .worker)] := by
  have cpLast : (BitVec.ofInt 64 (q.d - 1 + controlCount)).toInt = q.d - 1 + controlCount :=
    BitVec.toInt_ofInt_eq_self (by decide) (by omega) (by omega)
  have wrkFirst : (BitVec.ofInt 64 (q.d + controlCount)).toInt = q.d + controlCount :=
    BitVec.toInt_ofInt_eq_self (by decide) (by omega) (by omega)
  have wrkLast : (BitVec.ofInt 64 (q.d - 1 + controlCount + workerCount)).toInt = q.d - 1 + controlCount + workerCount :=
    BitVec.toInt_ofInt_eq_self (by decide) (by omega) (by omega)
  have first : decide (q.d + k = q.d.val) = decide (k = 0) := decide_eq_decide.2 (by omega)
  have subsequent : (q.d.val + 1 ≤ q.d + k && ((q.d + k : Nat) : Int) ≤ q.d - 1 + controlCount) =
      (1 ≤ k && k < controlCount) := by
    rw [Bool.eq_iff_iff]
    simp only [Bool.and_eq_true, decide_eq_true_eq]
    omega
  have worker : ((q.d + controlCount : Int) ≤ (q.d + k : Nat) &&
      ((q.d + k : Nat) : Int) ≤ q.d - 1 + controlCount + workerCount) =
        (controlCount ≤ k && k < controlCount + workerCount) := by
    rw [Bool.eq_iff_iff]
    simp only [Bool.and_eq_true, decide_eq_true_eq]
    omega
  rw [configGenericBox_dotted q _ _ (by omega), cpLast, wrkFirst, wrkLast, first, subsequent, worker]

/-- Each node runs its role, whether that succeeds or not. -/
theorem configGenericBox_node (q : DottedQuad) (control : 1 ≤ controlCount)
    (fits : q.d + controlCount + max workerCount 1 ≤ 2 ^ 63) (member : node ∈ nodes controlCount workerCount)
    (succeeds : Role → Bool) :
    configGenericBox ⟨q.text, controlCount, workerCount⟩ (node.machine q controlCount).ip succeeds = [node.role] := by
  rcases mem_nodes.1 member with ⟨i, positive, inside, rfl⟩ | ⟨i, positive, inside, rfl⟩
  · refine (configGenericBox_offset (k := i - 1) q fits (by omega) succeeds).trans ?_
    rcases Nat.eq_or_lt_of_le positive with rfl | later
    · have noControl : controlCount ≠ 0 := by omega
      simp [runChain, noControl, Node.role]
    · obtain ⟨j, rfl⟩ : ∃ j, i = j + 2 := ⟨i - 2, by omega⟩
      have subsequent : j + 1 < controlCount := inside
      simp [runChain, subsequent, Node.role]
  · have notFirst : controlCount + i - 1 ≠ 0 := by omega
    have noControl : ¬ controlCount + i - 1 < controlCount := by omega
    have worker : controlCount ≤ controlCount + i - 1 ∧ controlCount + i - 1 < controlCount + workerCount := by omega
    refine (configGenericBox_offset (k := controlCount + i - 1) q fits worker.2 succeeds).trans ?_
    simp [runChain, notFirst, noControl, worker, Node.role]

/-- **The addressing agrees.** While the greatest number that is computed fits in 64 bits, the
machines are those of `/etc/hosts`, their addresses differ, and each machine runs its role. -/
theorem addressing_agrees (q : DottedQuad) (control : 1 ≤ controlCount)
    (fits : q.d + controlCount + max workerCount 1 ≤ 2 ^ 63) :
    let settings : Settings := ⟨q.text, controlCount, workerCount⟩
    let machines := (nodes controlCount workerCount).map (Node.machine q controlCount)
    vagrantMachines settings = some machines ∧ hostsLines settings = machines.map Machine.hostsLine ∧
      (machines.map Machine.ip).Nodup ∧ ∀ node ∈ nodes controlCount workerCount, ∀ succeeds,
        configGenericBox settings (node.machine q controlCount).ip succeeds = [node.role] := by
  refine ⟨vagrantMachines_eq q control, hostsLines_eq q (by omega), addresses_nodup q .., ?_⟩
  exact fun node member succeeds => configGenericBox_node q control fits member succeeds

end

/-- The address in the repository's settings. -/
def controlIp : DottedQuad := ⟨192, 168, 56, 15⟩

theorem addressing_agrees_three_two :
    let settings : Settings := ⟨controlIp.text, 3, 2⟩
    let machines := (nodes 3 2).map (Node.machine controlIp 3)
    vagrantMachines settings = some machines ∧ hostsLines settings = machines.map Machine.hostsLine ∧
      (machines.map Machine.ip).Nodup ∧ ∀ node ∈ nodes 3 2, ∀ succeeds,
        configGenericBox settings (node.machine controlIp 3).ip succeeds = [node.role] :=
  addressing_agrees controlIp (by decide) (by decide)

/-- With `2 ^ 63 - 15` control planes the first octet of the workers wraps to the least number:
the first control plane is configured as a worker, too. -/
theorem first_runs_worker :
    configGenericBox ⟨controlIp.text, 2 ^ 63 - 15, 0⟩ ((Node.controlPlane 1).machine controlIp (2 ^ 63 - 15)).ip
      (fun _ => true) = [.controlPlaneFirst, .worker] := by
  refine (configGenericBox_dotted controlIp (2 ^ 63 - 15) 0 (by decide) _).trans ?_
  decide

end GtpLibrary.K8s
