import GtpLibrary.Lib.Numerals

/-!
# The nodes of the cluster

The `Vagrantfile` defines the machines, `common-all-nodes` writes their names to `/etc/hosts`
and `config-generic-box` finds out what the machine is that it runs on. Each of them counts
from `control_ip` on by itself. The integers of Ruby are unbounded, those of the shell have 64
bits and wrap.
-/

namespace GtpLibrary.K8s

open Lib.Numerals

/-- What is read of `settings.yml`. -/
structure Settings where
  controlIp : Text
  controlCount : Nat
  workerCount : Nat

/-- `node.vm.hostname` and the address in the private network. -/
structure Machine where
  hostname : Text
  ip : Text

/-! ## `Vagrantfile` -/

/-- The captures of `/^([0-9.]+\.)([^.]+)$/` in a text of one line. -/
def ipSections (controlIp : Text) : Option (Text × Text) :=
  let front := controlIp.rdropWhile (· ≠ '.')
  let last := controlIp.rtakeWhile (· ≠ '.')
  if 2 ≤ front.length ∧ (front.all fun c => c.isDigit || c = '.') ∧ last ≠ [] then some (front, last) else none

/-- The machines in the order of `config.vm.define`. -/
def vagrantMachines (settings : Settings) : Option (List Machine) := do
  let (ipNw, last) ← ipSections settings.controlIp
  let ipStart ← number last
  let first : Machine := ⟨"control-plane-1".toList, settings.controlIp⟩
  let others := (List.range' 2 (settings.controlCount - 1)).map fun i : Nat =>
    ⟨"control-plane-".toList ++ numeral i, ipNw ++ signed (ipStart - 1 + i)⟩
  let workers := (List.range' 1 settings.workerCount).map fun i : Nat =>
    ⟨"worker-".toList ++ numeral i, ipNw ++ signed (ipStart - 1 + settings.controlCount + i)⟩
  return first :: others ++ workers

/-! ## Texts in the shell -/

/-- `seq 1 n`, by words. -/
def seq (n : Nat) : List Text := (List.range' 1 n).map numeral

/-- `awk -F. '{print $k}'` -/
def awkField (k : Nat) (line : Text) : Text := (line.splitOn '.').getD (k - 1) []

/-- `awk -F. '{print $1"."$2"."$3"."}'` -/
def awkNet (line : Text) : Text :=
  awkField 1 line ++ ['.'] ++ awkField 2 line ++ ['.'] ++ awkField 3 line ++ ['.']

/-- A numeral in `$(( … ))`, where an empty text is 0. -/
def operand (t : Text) : BitVec 64 := BitVec.ofNat 64 ((number t).getD 0)

/-- What `$(( … ))` is replaced by. -/
def printed (x : BitVec 64) : Text := signed x.toInt

/-- An operand of `[ … ]`: an integer of 64 bits. -/
def testOperand (t : Text) : Option Int := (integer t).filter fun x => -9223372036854775808 ≤ x && x ≤ 9223372036854775807

/-- `[ a -le b ]`; a text that is no integer is an error, which is not true. -/
def testLe (a b : Text) : Bool := (testOperand a).any fun x => (testOperand b).any fun y => x ≤ y

/-- `[ a -eq b ]` -/
def testEq (a b : Text) : Bool := (testOperand a).any fun x => (testOperand b).any fun y => x = y

/-! ## `manage.sh` -/

/-- The lines that `common-all-nodes` adds to `/etc/hosts`. -/
def hostsLines (settings : Settings) : List Text :=
  let ipNw := awkNet settings.controlIp
  let ipStart := operand (awkField 4 settings.controlIp)
  let numControlNodes := operand (numeral settings.controlCount)
  let controls := (seq settings.controlCount).map fun i =>
    ipNw ++ printed (ipStart - 1 + operand i) ++ " control-plane-".toList ++ i
  let workers := (seq settings.workerCount).map fun i =>
    ipNw ++ printed (ipStart - 1 + numControlNodes + operand i) ++ " worker-".toList ++ i
  controls ++ workers

/-- The functions that configure a machine for its role. -/
inductive Role where
  | controlPlaneFirst | controlPlaneSubsequent | worker
  deriving DecidableEq

/-- `if test; then role; fi && …`: a role that fails ends the chain. -/
def runChain (succeeds : Role → Bool) : List (Bool × Role) → List Role
  | [] => []
  | (test, role) :: rest =>
    if test then role :: if succeeds role then runChain succeeds rest else [] else runChain succeeds rest

/-- The roles that `config-generic-box` runs behind `common-all-nodes`. `localIp` is the
address of the machine, which the head of the script reads with `ip` and `jq`. -/
def configGenericBox (settings : Settings) (localIp : Text) (succeeds : Role → Bool) : List Role :=
  if awkNet localIp ≠ awkNet settings.controlIp then []
  else
    let localIpOctet := awkField 4 localIp
    let controlIpOctet := awkField 4 settings.controlIp
    let numControlNodes := operand (numeral settings.controlCount)
    let numWorkerNodes := operand (numeral settings.workerCount)
    let cpFirstOctet := controlIpOctet
    let cpLastOctet := printed (operand controlIpOctet - 1 + numControlNodes)
    let wrkFirstOctet := printed (operand controlIpOctet + numControlNodes)
    let wrkLastOctet := printed (operand controlIpOctet - 1 + numControlNodes + numWorkerNodes)
    runChain succeeds [
      (testEq localIpOctet controlIpOctet, .controlPlaneFirst),
      (testLe (printed (operand cpFirstOctet + 1)) localIpOctet && testLe localIpOctet cpLastOctet,
        .controlPlaneSubsequent),
      (testLe wrkFirstOctet localIpOctet && testLe localIpOctet wrkLastOctet, .worker)]

/-! ## The plan -/

/-- An address as it is written. -/
structure DottedQuad where
  a : Fin 256
  b : Fin 256
  c : Fin 256
  d : Fin 256

def DottedQuad.text (q : DottedQuad) : Text := dotted [q.a, q.b, q.c, q.d]

/-- The nodes are numbered from 1 on. -/
inductive Node where
  | controlPlane (i : Nat)
  | worker (i : Nat)

def nodes (controlCount workerCount : Nat) : List Node :=
  (List.range' 1 controlCount).map .controlPlane ++ (List.range' 1 workerCount).map .worker

namespace Node

def hostname : Node → Text
  | .controlPlane i => "control-plane-".toList ++ numeral i
  | .worker i => "worker-".toList ++ numeral i

/-- How far the address is from `control_ip`. -/
def offset (controlCount : Nat) : Node → Nat
  | .controlPlane i => i - 1
  | .worker i => controlCount + i - 1

def role : Node → Role
  | .controlPlane 1 => .controlPlaneFirst
  | .controlPlane _ => .controlPlaneSubsequent
  | .worker _ => .worker

/-- The machine that is meant. -/
def machine (q : DottedQuad) (controlCount : Nat) (node : Node) : Machine :=
  ⟨node.hostname, dotted [q.a, q.b, q.c, q.d + node.offset controlCount]⟩

end Node

/-- The line of a machine in `/etc/hosts`. -/
def Machine.hostsLine (m : Machine) : Text := m.ip ++ ' ' :: m.hostname

end GtpLibrary.K8s
