import Mathlib.Data.Nat.Bitwise
import QsolFed.Library.Bpf

/-!
# System call filters of the sandbox

A probe runs under two filters. The first one refuses addressable networking, signals, access to
the memory of other processes and asynchronous rings; the second one refuses descriptors of other
processes and the keyring. Both are assembled as instructions with relative jumps, for the machine
that the tool runs on.
-/
namespace QsolFed.Sandbox

open Bpf

/-! ## Constants -/

/-- Load a word at an absolute offset. -/
abbrev bpfLdWAbs : UInt16 := 0x20

/-- Jump on equality with the operand. -/
abbrev bpfJmpJeqK : UInt16 := 0x15

/-- Jump on a bit of the operand. -/
abbrev bpfJmpJsetK : UInt16 := 0x45

/-- Return the operand. -/
abbrev bpfRetK : UInt16 := 0x06

/-- The action that lets a call pass. -/
abbrev seccompRetAllow : UInt32 := 0x7FFF0000

/-- The action that fails a call with an error number. -/
abbrev seccompRetErrno : UInt32 := 0x00050000

/-- The error number for an operation that is not permitted. -/
abbrev eperm : UInt32 := 1

/-- The offset of the architecture. -/
abbrev seccompDataArchOffset : UInt32 := 4

/-- The offset of the low word of the first argument. -/
abbrev seccompDataArg0Offset : UInt32 := 16

/-- The family of local sockets. -/
abbrev afUnix : UInt32 := 1

/-- The architecture word of one machine. -/
abbrev auditArchX8664 : UInt32 := 0xC000003E

/-- The architecture word of the other machine. -/
abbrev auditArchAarch64 : UInt32 := 0xC00000B7

/-- The bit that marks calls of the 32-bit interface of the first machine. -/
abbrev x32SyscallBit : UInt32 := 0x40000000

/-! ## Numbers of calls -/

/-- What the tool reads of the system that it runs on. -/
structure Host where
  /-- The platform. -/
  platform : String
  /-- The machine. -/
  machine : String
  deriving DecidableEq, Repr

/-- The library is there on supported hosts alone. -/
def linuxLibc (host : Host) : Except String Unit :=
  if host.platform ≠ "linux" ∨ host.machine ∉ ["x86_64", "aarch64"] then
    .error "moriarty_linux_isolation_platform_required"
  else .ok ()

/-- A value for each supported machine. -/
def forMachine {α : Type} (machine : String) (x8664 aarch64 : α) (message : String) :
    Except String α :=
  if machine = "x86_64" then .ok x8664
  else if machine = "aarch64" then .ok aarch64
  else .error message

/-- The numbers of `socket`, `socketpair` and `connect`, and the architecture word. -/
def socketSyscalls (machine : String) : Except String (UInt32 × UInt32 × UInt32 × UInt32) :=
  forMachine machine (41, 53, 42, auditArchX8664) (198, 199, 203, auditArchAarch64)
    "moriarty_network_seccomp_arch_unsupported"

/-- The numbers of `kill`, `tkill`, `tgkill`, `pidfd_send_signal`, `rt_sigqueueinfo` and
`rt_tgsigqueueinfo`. -/
def signalSyscalls (machine : String) :
    Except String (UInt32 × UInt32 × UInt32 × UInt32 × UInt32 × UInt32) :=
  forMachine machine (62, 200, 234, 424, 129, 297) (129, 130, 131, 424, 138, 240)
    "moriarty_signal_seccomp_arch_unsupported"

/-- The numbers of the calls that reach into the memory of a process. -/
def processMemorySyscalls (machine : String) : Except String (List UInt32) :=
  forMachine machine [101, 310, 311] [117, 270, 271]
    "moriarty_process_memory_seccomp_arch_unsupported"

/-- The numbers of the calls for asynchronous rings. -/
def ioUringSyscalls : List UInt32 := [425, 426, 427]

/-- The number of `prlimit64`. -/
def prlimitSyscall (machine : String) : Except String UInt32 :=
  forMachine machine 302 261 "moriarty_prlimit_seccomp_arch_unsupported"

/-- The numbers of the calls for descriptors of processes. -/
def pidfdDescriptorSyscalls (machine : String) : Except String (List UInt32) :=
  forMachine machine [434, 438] [434, 438] "moriarty_pidfd_descriptor_seccomp_arch_unsupported"

/-- The numbers of the calls for the keyring. -/
def keyringSyscalls (machine : String) : Except String (List UInt32) :=
  forMachine machine [248, 249, 250] [217, 218, 219] "moriarty_keyring_seccomp_arch_unsupported"

/-! ## Filters -/

/-- The action of a refusal. -/
def deny : UInt32 := seccompRetErrno ||| eperm

/-- How both filters begin: the architecture is the native one, the number is loaded, and on one
machine the 32-bit interface is refused. -/
def nativeInstructions (machine : String) (auditArch : UInt32) : List Instruction :=
  [⟨bpfLdWAbs, 0, 0, seccompDataArchOffset⟩,
    ⟨bpfJmpJeqK, 1, 0, auditArch⟩,
    ⟨bpfRetK, 0, 0, deny⟩,
    ⟨bpfLdWAbs, 0, 0, 0⟩] ++
  if machine = "x86_64" then
    [⟨bpfJmpJsetK, 0, 1, x32SyscallBit⟩,
      ⟨bpfRetK, 0, 0, deny⟩]
  else []

/-- Numbers that are refused, one after the other. -/
def denyInstructions (numbers : List UInt32) : List Instruction :=
  numbers.flatMap fun number => [⟨bpfJmpJeqK, 0, 1, number⟩, ⟨bpfRetK, 0, 0, deny⟩]

/-- The limits of a process may be changed by itself alone. -/
def prlimitBlock : List Instruction :=
  [⟨bpfLdWAbs, 0, 0, seccompDataArg0Offset⟩,
    ⟨bpfJmpJeqK, 1, 0, 0⟩,
    ⟨bpfRetK, 0, 0, deny⟩,
    ⟨bpfLdWAbs, 0, 0, 0⟩]

/-- The end of the first filter: only local pairs of sockets may be made. -/
def socketInstructions (socket socketpair connect : UInt32) : List Instruction :=
  [⟨bpfJmpJeqK, 0, 1, socket⟩,
    ⟨bpfRetK, 0, 0, deny⟩,
    ⟨bpfJmpJeqK, 0, 1, connect⟩,
    ⟨bpfRetK, 0, 0, deny⟩,
    ⟨bpfJmpJeqK, 0, 4, socketpair⟩,
    ⟨bpfLdWAbs, 0, 0, seccompDataArg0Offset⟩,
    ⟨bpfJmpJeqK, 0, 1, afUnix⟩,
    ⟨bpfRetK, 0, 0, seccompRetAllow⟩,
    ⟨bpfRetK, 0, 0, deny⟩,
    ⟨bpfRetK, 0, 0, seccompRetAllow⟩]

/-- The first filter. -/
def networkSeccompPolicy (host : Host) : Except String (List Instruction) := do
  linuxLibc host
  let (socket, socketpair, connect, auditArch) ← socketSyscalls host.machine
  let (kill, tkill, tgkill, pidfdSignal, rtSigqueueinfo, rtTgsigqueueinfo) ←
    signalSyscalls host.machine
  let processMemory ← processMemorySyscalls host.machine
  let prlimit ← prlimitSyscall host.machine
  return nativeInstructions host.machine auditArch ++
    denyInstructions (ioUringSyscalls ++
      [pidfdSignal, kill, tkill, tgkill, rtSigqueueinfo, rtTgsigqueueinfo] ++ processMemory) ++
    [⟨bpfJmpJeqK, 0, UInt8.ofNat prlimitBlock.length, prlimit⟩] ++ prlimitBlock ++
    socketInstructions socket socketpair connect

/-- The second filter. -/
def sensitiveHostHandleSeccompPolicy (host : Host) : Except String (List Instruction) := do
  linuxLibc host
  let (_, _, _, auditArch) ← socketSyscalls host.machine
  let descriptors ← pidfdDescriptorSyscalls host.machine
  let keyring ← keyringSyscalls host.machine
  return nativeInstructions host.machine auditArch ++
    denyInstructions (descriptors ++ keyring) ++
    [⟨bpfRetK, 0, 0, seccompRetAllow⟩]

/-- The filters that a probe gets, in the order in which they are installed. -/
def applyNetworkSeccompPolicy (host : Host) : Except String (List (List Instruction)) := do
  let network ← networkSeccompPolicy host
  let handles ← sensitiveHostHandleSeccompPolicy host
  return [network, handles]

/-! ## Calls -/

/-- What a filter sees of a call. -/
structure SeccompData where
  /-- The number of the call. -/
  nr : UInt32
  /-- The architecture. -/
  arch : UInt32
  /-- Where the call is made. -/
  instructionPointer : UInt64
  /-- The arguments. -/
  args : Fin 6 → UInt64

/-- The low word of a double word. -/
def low (value : UInt64) : UInt32 := value.toUInt32

/-- The high word of a double word. -/
def high (value : UInt64) : UInt32 := (value >>> 32).toUInt32

/-- The words of a call, low words first. -/
def SeccompData.words (data : SeccompData) : List UInt32 :=
  [data.nr, data.arch, low data.instructionPointer, high data.instructionPointer] ++
    (List.finRange 6).flatMap fun index => [low (data.args index), high (data.args index)]

/-- The word at an offset of bytes. -/
def SeccompData.word? (data : SeccompData) (offset : UInt32) : Option UInt32 :=
  if offset.toNat % 4 = 0 then data.words[offset.toNat / 4]? else none

/-- The low word of the first argument. -/
def SeccompData.arg0 (data : SeccompData) : UInt32 := low (data.args 0)

/-! ## What the filters are for -/

/-- The machines that the tool supports. -/
inductive Machine where
  /-- One machine. -/
  | x8664
  /-- The other machine. -/
  | aarch64
  deriving DecidableEq, Repr

/-- The name of a machine. -/
def Machine.name : Machine → String
  | .x8664 => "x86_64"
  | .aarch64 => "aarch64"

/-- The architecture word of a machine. -/
def Machine.arch : Machine → UInt32
  | .x8664 => 0xC000003E
  | .aarch64 => 0xC00000B7

/-- The calls that the filters name. -/
inductive Call where
  | ioUringSetup | ioUringEnter | ioUringRegister
  | kill | tkill | tgkill | rtSigqueueinfo | rtTgsigqueueinfo | pidfdSendSignal
  | ptrace | processVmReadv | processVmWritev
  | pidfdOpen | pidfdGetfd
  | addKey | requestKey | keyctl
  | socket | connect | socketpair | prlimit64
  deriving DecidableEq, Repr

/-- The number of a call on a machine. -/
def Machine.number : Machine → Call → UInt32
  | _, .ioUringSetup => 425
  | _, .ioUringEnter => 426
  | _, .ioUringRegister => 427
  | .x8664, .kill => 62
  | .aarch64, .kill => 129
  | .x8664, .tkill => 200
  | .aarch64, .tkill => 130
  | .x8664, .tgkill => 234
  | .aarch64, .tgkill => 131
  | .x8664, .rtSigqueueinfo => 129
  | .aarch64, .rtSigqueueinfo => 138
  | .x8664, .rtTgsigqueueinfo => 297
  | .aarch64, .rtTgsigqueueinfo => 240
  | _, .pidfdSendSignal => 424
  | .x8664, .ptrace => 101
  | .aarch64, .ptrace => 117
  | .x8664, .processVmReadv => 310
  | .aarch64, .processVmReadv => 270
  | .x8664, .processVmWritev => 311
  | .aarch64, .processVmWritev => 271
  | _, .pidfdOpen => 434
  | _, .pidfdGetfd => 438
  | .x8664, .addKey => 248
  | .aarch64, .addKey => 217
  | .x8664, .requestKey => 249
  | .aarch64, .requestKey => 218
  | .x8664, .keyctl => 250
  | .aarch64, .keyctl => 219
  | .x8664, .socket => 41
  | .aarch64, .socket => 198
  | .x8664, .connect => 42
  | .aarch64, .connect => 203
  | .x8664, .socketpair => 53
  | .aarch64, .socketpair => 199
  | .x8664, .prlimit64 => 302
  | .aarch64, .prlimit64 => 261

/-- The calls for asynchronous rings, for signals and for the memory of processes. -/
def processCalls : List Call :=
  [.ioUringSetup, .ioUringEnter, .ioUringRegister, .pidfdSendSignal, .kill, .tkill, .tgkill,
    .rtSigqueueinfo, .rtTgsigqueueinfo, .ptrace, .processVmReadv, .processVmWritev]

/-- The calls for addressable sockets. -/
def socketCalls : List Call := [.socket, .connect]

/-- The calls for descriptors of processes and for the keyring. -/
def handleCalls : List Call := [.pidfdOpen, .pidfdGetfd, .addKey, .requestKey, .keyctl]

/-- A call is native: its architecture is that of the machine, and it does not go through the
32-bit interface. -/
structure Native (machine : Machine) (data : SeccompData) : Prop where
  /-- The architecture is that of the machine. -/
  arch : data.arch = machine.arch
  /-- The number has no mark of the 32-bit interface. -/
  plain : machine = .x8664 → data.nr.toNat.testBit 30 = false

/-- Whether a call is native is decided. -/
instance (machine : Machine) (data : SeccompData) : Decidable (Native machine data) :=
  decidable_of_iff (data.arch = machine.arch ∧
      (machine = .x8664 → data.nr.toNat.testBit 30 = false))
    ⟨fun both => ⟨both.1, both.2⟩, fun native => ⟨native.arch, native.plain⟩⟩

/-- The calls that a probe may make. -/
structure Admitted (machine : Machine) (data : SeccompData) : Prop where
  /-- The call is native. -/
  native : Native machine data
  /-- Neither filter refuses the number. -/
  harmless : ∀ call ∈ processCalls ++ socketCalls ++ handleCalls, data.nr ≠ machine.number call
  /-- Limits are those of the process itself. -/
  ownLimits : data.nr = machine.number .prlimit64 → data.arg0 = 0
  /-- Pairs of sockets are local. -/
  localPair : data.nr = machine.number .socketpair → data.arg0 = afUnix

/-! ## Results of the blocks -/

variable {data : SeccompData} {rest : List Instruction} {accumulator : UInt32}

/-- The number is the first word. -/
theorem word?_nr : data.word? 0 = some data.nr := rfl

/-- The architecture is the second word. -/
theorem word?_arch : data.word? seccompDataArchOffset = some data.arch := rfl

/-- The low word of the first argument is the fifth word. -/
theorem word?_arg0 : data.word? seccompDataArg0Offset = some data.arg0 := rfl

/-- The bit of the 32-bit interface is the thirty-first one. -/
theorem x32_iff (number : UInt32) :
    number &&& x32SyscallBit = 0 ↔ number.toNat.testBit 30 = false := by
  have masked : (number &&& x32SyscallBit).toNat = (number.toNat.testBit 30).toNat * 2 ^ 30 := by
    rw [UInt32.toNat_and, ← Nat.and_two_pow]
    rfl
  rw [← UInt32.toNat_inj, masked]
  cases number.toNat.testBit 30 with
  | false => simp
  | true => simp

/-- The beginning of both filters goes on with the number of a native call. -/
theorem eval_native (machine : Machine) :
    eval data.word? (nativeInstructions machine.name machine.arch ++ rest) 0 accumulator =
      if Native machine data then eval data.word? rest 0 data.nr else some deny := by
  have loaded : ∀ more, eval data.word? ([⟨bpfLdWAbs, 0, 0, seccompDataArchOffset⟩,
      ⟨bpfJmpJeqK, 1, 0, machine.arch⟩, ⟨bpfRetK, 0, 0, deny⟩, ⟨bpfLdWAbs, 0, 0, 0⟩] ++ more) 0
        accumulator = if data.arch = machine.arch then eval data.word? more 0 data.nr
          else some deny := by
    intro more
    simp only [List.cons_append, List.nil_append]
    rw [eval_load word?_arch, eval_jumpEqual]
    by_cases same : data.arch = machine.arch
    · rw [if_pos same, if_pos same]
      exact eval_load word?_nr
    · rw [if_neg same, if_neg same]
      exact eval_ret
  rw [nativeInstructions, List.append_assoc, loaded]
  by_cases same : data.arch = machine.arch
  · rw [if_pos same]
    cases machine with
    | x8664 =>
      have marked : Native .x8664 data ↔ data.nr &&& x32SyscallBit = 0 :=
        ⟨fun native => (x32_iff _).mpr (native.plain rfl),
          fun unset => ⟨same, fun _ => (x32_iff _).mp unset⟩⟩
      simp only [Machine.name, if_true, List.cons_append, List.nil_append, eval_jumpSet, marked]
      split_ifs with unset
      · rfl
      · exact eval_ret
    | aarch64 =>
      have native : Native .aarch64 data := ⟨same, nofun⟩
      rw [if_pos native]
      rfl
  · rw [if_neg same, if_neg fun native => same native.arch]

/-- Refused numbers are refused and others go on. -/
theorem eval_deny (numbers : List UInt32) :
    eval data.word? (denyInstructions numbers ++ rest) 0 accumulator =
      if accumulator ∈ numbers then some deny else eval data.word? rest 0 accumulator :=
  eval_refusals deny numbers

/-- Behind the check of the limits the number is there again. -/
theorem eval_prlimit (prlimit : UInt32) :
    eval data.word? ([⟨bpfJmpJeqK, 0, UInt8.ofNat prlimitBlock.length, prlimit⟩] ++ prlimitBlock ++
        rest) 0 data.nr =
      if data.nr = prlimit ∧ data.arg0 ≠ 0 then some deny else eval data.word? rest 0 data.nr := by
  simp only [prlimitBlock, List.cons_append, List.nil_append]
  rw [eval_jumpEqual]
  by_cases named : data.nr = prlimit
  · rw [if_pos named]
    change eval data.word? (_ :: _) 0 _ = _
    rw [eval_load word?_arg0, eval_jumpEqual]
    by_cases own : data.arg0 = 0
    · rw [if_pos own, if_neg fun refused => refused.2 own]
      exact eval_load word?_nr
    · rw [if_neg own, if_pos ⟨named, own⟩]
      exact eval_ret
  · rw [if_neg named, if_neg fun refused => named refused.1]
    rfl

/-- The end of the first filter. -/
theorem eval_socket (socket socketpair connect : UInt32) :
    eval data.word? (socketInstructions socket socketpair connect) 0 data.nr =
      if data.nr = socket ∨ data.nr = connect ∨ (data.nr = socketpair ∧ data.arg0 ≠ afUnix) then
        some deny
      else some seccompRetAllow := by
  have refusal : ∀ more, eval data.word? ([⟨bpfJmpJeqK, 0, 1, socket⟩, ⟨bpfRetK, 0, 0, deny⟩,
      ⟨bpfJmpJeqK, 0, 1, connect⟩, ⟨bpfRetK, 0, 0, deny⟩] ++ more) 0 data.nr =
        if data.nr ∈ [socket, connect] then some deny else eval data.word? more 0 data.nr :=
    fun _ => eval_deny [socket, connect]
  have split := refusal [⟨bpfJmpJeqK, 0, 4, socketpair⟩, ⟨bpfLdWAbs, 0, 0, seccompDataArg0Offset⟩,
    ⟨bpfJmpJeqK, 0, 1, afUnix⟩, ⟨bpfRetK, 0, 0, seccompRetAllow⟩, ⟨bpfRetK, 0, 0, deny⟩,
    ⟨bpfRetK, 0, 0, seccompRetAllow⟩]
  rw [socketInstructions]
  simp only [List.cons_append, List.nil_append] at split
  rw [split]
  by_cases refused : data.nr ∈ [socket, connect]
  · have either : data.nr = socket ∨ data.nr = connect := by simpa using refused
    rw [if_pos refused, if_pos (either.imp_right .inl)]
  · have neither : data.nr ≠ socket ∧ data.nr ≠ connect := by simpa using refused
    simp only [neither.1, neither.2, false_or, refused, if_false]
    rw [eval_jumpEqual]
    by_cases pair : data.nr = socketpair
    · rw [if_pos pair]
      change eval data.word? (_ :: _) 0 _ = _
      rw [eval_load word?_arg0, eval_jumpEqual]
      by_cases here : data.arg0 = afUnix
      · rw [if_pos here, if_neg fun both => both.2 here]
        exact eval_ret
      · rw [if_neg here, if_pos ⟨pair, here⟩]
        exact eval_ret
    · rw [if_neg pair, if_neg fun both => pair both.1]
      exact eval_ret

/-! ## The filters of a machine -/

/-- The first filter of a machine, by its numbers. -/
def Machine.network (machine : Machine) : List Instruction :=
  nativeInstructions machine.name machine.arch ++
    denyInstructions (processCalls.map machine.number) ++
    [⟨bpfJmpJeqK, 0, UInt8.ofNat prlimitBlock.length, machine.number .prlimit64⟩] ++
    prlimitBlock ++
    socketInstructions (machine.number .socket) (machine.number .socketpair)
      (machine.number .connect)

/-- The second filter of a machine, by its numbers. -/
def Machine.handles (machine : Machine) : List Instruction :=
  nativeInstructions machine.name machine.arch ++
    denyInstructions (handleCalls.map machine.number) ++ [⟨bpfRetK, 0, 0, seccompRetAllow⟩]

/-- A probe on a supported machine gets the filters of the machine. -/
theorem applyNetworkSeccompPolicy_machine (machine : Machine) :
    applyNetworkSeccompPolicy ⟨"linux", machine.name⟩ =
      .ok [machine.network, machine.handles] := by
  cases machine with
  | x8664 => rfl
  | aarch64 => rfl

/-- Filters are installed on the supported machines alone. -/
theorem applyNetworkSeccompPolicy_ok_iff {host : Host} {filters : List (List Instruction)} :
    applyNetworkSeccompPolicy host = .ok filters ↔ ∃ machine : Machine,
      host = ⟨"linux", machine.name⟩ ∧ filters = [machine.network, machine.handles] := by
  constructor
  · intro applied
    by_cases unsupported : host.platform ≠ "linux" ∨ host.machine ∉ ["x86_64", "aarch64"]
    · simp only [applyNetworkSeccompPolicy, networkSeccompPolicy, linuxLibc, if_pos unsupported,
        bind, Except.bind] at applied
      cases applied
    · have named : ∃ machine : Machine, host = ⟨"linux", machine.name⟩ := by
        obtain ⟨platform, machine⟩ := host
        have linux : platform = "linux" := not_not.mp (not_or.mp unsupported).1
        have listed : machine ∈ ["x86_64", "aarch64"] := not_not.mp (not_or.mp unsupported).2
        simp only [List.mem_cons, List.not_mem_nil, or_false] at listed
        rw [linux]
        rcases listed with rfl | rfl
        · exact ⟨.x8664, rfl⟩
        · exact ⟨.aarch64, rfl⟩
      obtain ⟨machine, rfl⟩ := named
      rw [applyNetworkSeccompPolicy_machine, Except.ok.injEq] at applied
      exact ⟨machine, rfl, applied.symm⟩
  · rintro ⟨machine, rfl, rfl⟩
    exact applyNetworkSeccompPolicy_machine machine

/-- Every jump of the first filter lands inside. -/
theorem jumpsInside_network (machine : Machine) : JumpsInside machine.network := by
  cases machine with
  | x8664 => decide
  | aarch64 => decide

/-- Every jump of the second filter lands inside. -/
theorem jumpsInside_handles (machine : Machine) : JumpsInside machine.handles := by
  cases machine with
  | x8664 => decide
  | aarch64 => decide

/-- What the first filter lets pass. -/
structure NetworkAdmitted (machine : Machine) (data : SeccompData) : Prop where
  /-- The call is native. -/
  native : Native machine data
  /-- The number is none of those that are refused. -/
  harmless : ∀ call ∈ processCalls ++ socketCalls, data.nr ≠ machine.number call
  /-- Limits are those of the process itself. -/
  ownLimits : data.nr = machine.number .prlimit64 → data.arg0 = 0
  /-- Pairs of sockets are local. -/
  localPair : data.nr = machine.number .socketpair → data.arg0 = afUnix

/-- Refusals and permissions differ. -/
theorem deny_ne_allow : deny ≠ seccompRetAllow := by decide

/-- A number is that of a call of a list or of none. -/
theorem mem_numbers (machine : Machine) (calls : List Call) :
    data.nr ∉ calls.map machine.number ↔ ∀ call ∈ calls, data.nr ≠ machine.number call := by
  simp only [List.mem_map, not_exists, not_and, ne_comm (a := data.nr), ne_eq]

/-- The first filter returns, and lets a call pass exactly when it may be made. -/
theorem eval_network (machine : Machine) : ∃ action,
    eval data.word? machine.network 0 accumulator = some action ∧
      (action = seccompRetAllow ↔ NetworkAdmitted machine data) := by
  rw [Machine.network, List.append_assoc, List.append_assoc, List.append_assoc, eval_native]
  by_cases native : Native machine data
  · rw [if_pos native, eval_deny]
    by_cases harmless : data.nr ∈ processCalls.map machine.number
    · rw [if_pos harmless]
      refine ⟨deny, rfl, iff_of_false deny_ne_allow fun admitted => ?_⟩
      exact (mem_numbers machine _).mpr
        (fun call listed => admitted.harmless call (List.mem_append_left _ listed)) harmless
    · rw [if_neg harmless, ← List.append_assoc, eval_prlimit]
      by_cases other : data.nr = machine.number .prlimit64 ∧ data.arg0 ≠ 0
      · rw [if_pos other]
        exact ⟨deny, rfl, iff_of_false deny_ne_allow fun admitted =>
          other.2 (admitted.ownLimits other.1)⟩
      · rw [if_neg other, eval_socket]
        split_ifs with refused
        · refine ⟨deny, rfl, iff_of_false deny_ne_allow fun admitted => ?_⟩
          have listed : ∀ call ∈ socketCalls, data.nr ≠ machine.number call := fun call named =>
            admitted.harmless call (List.mem_append_right _ named)
          rcases refused with socket | connect | ⟨pair, foreign⟩
          · exact listed .socket (by decide) socket
          · exact listed .connect (by decide) connect
          · exact foreign (admitted.localPair pair)
        · refine ⟨seccompRetAllow, rfl, iff_of_true rfl ⟨native, fun call listed => ?_,
            fun named => ?_, fun named => ?_⟩⟩
          · rcases List.mem_append.mp listed with process | socket
            · exact (mem_numbers machine _).mp harmless call process
            · rintro named
              simp only [socketCalls, List.mem_cons, List.not_mem_nil, or_false] at socket
              rcases socket with rfl | rfl
              · exact refused (.inl named)
              · exact refused (.inr (.inl named))
          · by_contra foreign
            exact other ⟨named, foreign⟩
          · by_contra foreign
            exact refused (.inr (.inr ⟨named, foreign⟩))
  · rw [if_neg native]
    exact ⟨deny, rfl, iff_of_false deny_ne_allow fun admitted => native admitted.native⟩

/-- The second filter returns, and lets a native call pass exactly when it is none of its own. -/
theorem eval_handles (machine : Machine) : ∃ action,
    eval data.word? machine.handles 0 accumulator = some action ∧
      (action = seccompRetAllow ↔ Native machine data ∧
        ∀ call ∈ handleCalls, data.nr ≠ machine.number call) := by
  rw [Machine.handles, List.append_assoc, eval_native]
  by_cases native : Native machine data
  · rw [if_pos native, eval_deny, ← mem_numbers]
    by_cases refused : data.nr ∈ handleCalls.map machine.number
    · rw [if_pos refused]
      exact ⟨deny, rfl, iff_of_false deny_ne_allow fun admitted => admitted.2 refused⟩
    · rw [if_neg refused]
      exact ⟨seccompRetAllow, eval_ret, iff_of_true rfl ⟨native, refused⟩⟩
  · rw [if_neg native]
    exact ⟨deny, rfl, iff_of_false deny_ne_allow fun admitted => native admitted.1⟩

/-- On every supported machine a probe gets two filters whose jumps all land inside. For every call
both return after at most as many steps as they have instructions, and both let the call pass
exactly when it may be made. -/
theorem filters_admit (machine : Machine) : ∃ network handles,
    applyNetworkSeccompPolicy ⟨"linux", machine.name⟩ = .ok [network, handles] ∧
      JumpsInside network ∧ JumpsInside handles ∧
      ∀ data : SeccompData, ∃ first second,
        run data.word? network network.length ⟨0, 0⟩ = some first ∧
        run data.word? handles handles.length ⟨0, 0⟩ = some second ∧
        (first = seccompRetAllow ∧ second = seccompRetAllow ↔ Admitted machine data) := by
  refine ⟨machine.network, machine.handles, applyNetworkSeccompPolicy_machine machine,
    jumpsInside_network machine, jumpsInside_handles machine, fun data => ?_⟩
  obtain ⟨first, firstRun, firstAllows⟩ := eval_network machine
  obtain ⟨second, secondRun, secondAllows⟩ := eval_handles machine
  refine ⟨first, second, run_start.trans firstRun, run_start.trans secondRun, ?_⟩
  rw [firstAllows, secondAllows]
  constructor
  · intro both
    exact ⟨both.1.native, List.forall_mem_append.mpr ⟨both.1.harmless, both.2.2⟩,
      both.1.ownLimits, both.1.localPair⟩
  · intro admitted
    have harmless := List.forall_mem_append.mp admitted.harmless
    exact ⟨⟨admitted.native, harmless.1, admitted.ownLimits, admitted.localPair⟩,
      admitted.native, harmless.2⟩

end QsolFed.Sandbox
