import Rl78Sim.Framework.Utf8
import Rl78Sim.Gdb.Attach
import Rl78Sim.Kernel.Soc

/-! # The Target of the Stub

    The stub reads and writes the memory of a board through requests to the
    inspect service of its node. A request carries at most `MEM_CHUNK` bytes, in
    hexadecimal digits. -/

namespace Rl78Sim

/-! ### Bytes in digits -/

/-- `char::to_digit` in base 16. -/
def to_digit (byte : UInt8) : Option Nat :=
  if 0x30 ≤ byte ∧ byte ≤ 0x39 then some (byte.toNat - 0x30)
  else if 0x61 ≤ byte ∧ byte ≤ 0x66 then some (byte.toNat - 0x61 + 10)
  else if 0x41 ≤ byte ∧ byte ≤ 0x46 then some (byte.toNat - 0x41 + 10)
  else none

/-- `u8::from_str_radix` in base 16, of two bytes. It takes a sign. -/
def u8_from_str_radix (first second : UInt8) : Except String UInt8 :=
  let hi := if first = 0x2B then some 0 else to_digit first
  match hi, to_digit second with
  | some hi, some lo => .ok (.ofNat (16 * hi + lo))
  | _, _ => .error "invalid digit found in string"

/-- The loop of `decode_hex`; `none` where a slice would cut a character. -/
def decode_pairs : List UInt8 → Option (Except String (List UInt8))
  | first :: second :: rest =>
    -- A slice that ends inside a character panics.
    if rest.head?.all Utf8.is_utf8_char_boundary then
      match u8_from_str_radix first second with
      | .error err => some (.error err)
      | .ok byte => (decode_pairs rest).map fun res => res.map fun bytes => byte :: bytes
    else none
  | _ => some (.ok [])

/-- `decode_hex`; `none` if it panics. -/
def decode_hex (text : String) : Option (Except String (List UInt8)) :=
  if text.utf8ByteSize % 2 ≠ 0 then some (.error "odd hex length")
  else decode_pairs (Utf8.as_bytes text)

/-! ### The service -/

/-- `MEM_CHUNK`. -/
def mem_chunk : Nat := 1024

/-- `InspectRequest`. -/
inductive InspectRequest where
  | ReadRegs
  | WriteRegs (data : String)
  | ReadMem (addr len : Nat)
  | WriteMem (addr : Nat) (data : String)
  | AddBreakpoint (addr : Nat)
  | RemoveBreakpoint (addr : Nat)
  | ClearBreakpoints
  deriving DecidableEq

section service

variable {E F : Type} [Entity E F]

/-- A command, and the reply that its response is turned into. -/
def reply_to (sim : Simulator E) (cmd : InspectCommand) : Simulator E × InspectReply :=
  let (sim, rsp) := sim.command (.Inspect cmd)
  (sim, reply_from_response rsp)

/-- `InspectServer::handle`; `none` if it panics. The arms that the source has for
    registers and memory reply as `reply_from_response` does. -/
def handle (sim : Simulator E) : InspectRequest → Option (Simulator E × InspectReply)
  | .ReadRegs => some (reply_to sim .ReadGdbRegs)
  | .WriteRegs data =>
    (decode_hex data).map fun
      | .ok bytes => reply_to sim (.WriteGdbRegs (bytes.map UInt8.toNat))
      | .error message => (sim, .Error message)
  | .ReadMem addr len =>
    -- The node refuses what a chunk cannot hold, before it looks at its simulator.
    if len = 0 ∨ mem_chunk < len then
      some (sim, .Error ("len must be 1..=" ++ toString mem_chunk))
    else some (reply_to sim (.ReadMem addr len))
  | .WriteMem addr data =>
    (decode_hex data).map fun
      | .ok bytes =>
        if bytes.length ≤ mem_chunk then reply_to sim (.WriteMem addr (bytes.map UInt8.toNat))
        else (sim, .Error ("write larger than " ++ toString mem_chunk))
      | .error message => (sim, .Error message)
  | .AddBreakpoint addr => some (reply_to sim (.AddBreakpoint addr))
  | .RemoveBreakpoint addr => some (reply_to sim (.RemoveBreakpoint addr))
  | .ClearBreakpoints => some (reply_to sim .ClearBreakpoints)

/-! ### The target -/

/-- How a call of the backend fails: before the node serves the request, or
    after. -/
inductive CallFault where
  | unserved
  | unanswered
  deriving DecidableEq

/-- `ClusterGdbTarget`, with the simulator of its board. `calls` is a history
    variable: how many calls of the backend it has made. -/
structure ClusterGdbTarget (E : Type) where
  sim : Simulator E
  calls : Nat

/-- `TargetError`. -/
inductive TargetError where
  | NonFatal
  deriving DecidableEq

/-- `GdbRegs`. -/
structure GdbRegs where
  raw : List UInt8
  pc : UInt32
  deriving DecidableEq

namespace ClusterGdbTarget

variable (fault : Nat → Option CallFault)

/-- `rpc`: the reply, if there is one. `fault` says how the calls fail. -/
def rpc (s : ClusterGdbTarget E) (req : InspectRequest) :
    Option (ClusterGdbTarget E × Option InspectReply) :=
  match fault s.calls with
  | some .unserved => some ({ s with calls := s.calls + 1 }, none)
  | some .unanswered => (handle s.sim req).map fun (sim, _) => (⟨sim, s.calls + 1⟩, none)
  | none => (handle s.sim req).map fun (sim, reply) => (⟨sim, s.calls + 1⟩, some reply)

/-- `read_registers`. -/
def read_registers (s : ClusterGdbTarget E) :
    Option (ClusterGdbTarget E × Except TargetError GdbRegs) :=
  (rpc fault s .ReadRegs).bind fun
    | (s, some (.Regs data pc)) => (decode_hex data).map fun
      | .ok raw => (s, .ok ⟨raw, .ofNat pc⟩)
      | .error _ => (s, .error .NonFatal)
    | (s, _) => some (s, .error .NonFatal)

/-- `write_registers`. -/
def write_registers (s : ClusterGdbTarget E) (regs : GdbRegs) :
    Option (ClusterGdbTarget E × Except TargetError Unit) :=
  (rpc fault s (.WriteRegs (encode_hex (regs.raw.map UInt8.toNat)))).map fun
    | (s, some .Ok) => (s, .ok ())
    | (s, _) => (s, .error .NonFatal)

/-- The loop of `read_addrs`, with the bytes that it has filled in. Each round
    fills in one at least, so that there are no more than `fuel` of them. -/
def read_loop (start_addr len : Nat) : Nat → ClusterGdbTarget E → List UInt8 →
    Option (ClusterGdbTarget E × Except TargetError (List UInt8))
  | 0, s, filled => if filled.length < len then none else some (s, .ok filled)
  | fuel + 1, s, filled =>
    if filled.length < len then
      let chunk := min (len - filled.length) mem_chunk
      (rpc fault s (.ReadMem (start_addr + filled.length) chunk)).bind fun
        | (s, some (.Mem data)) => (decode_hex data).bind fun
          | .ok bytes =>
            let n := min bytes.length (len - filled.length)
            -- An empty reply ends the read early, without an error.
            if n = 0 then some (s, .ok filled)
            else read_loop start_addr len fuel s (filled ++ bytes.take n)
          | .error _ => some (s, .error .NonFatal)
        | (s, _) => some (s, .error .NonFatal)
    else some (s, .ok filled)

/-- `read_addrs`: the part of the buffer that is filled. -/
def read_addrs (s : ClusterGdbTarget E) (start_addr : UInt32) (len : Nat) :
    Option (ClusterGdbTarget E × Except TargetError (List UInt8)) :=
  read_loop fault start_addr.toNat len len s []

/-- The loop of `write_addrs` over the chunks of the data. -/
def write_loop (start_addr : Nat) : Nat → ClusterGdbTarget E → Nat → List UInt8 →
    Option (ClusterGdbTarget E × Except TargetError Unit)
  | _, s, _, [] => some (s, .ok ())
  | 0, _, _, _ => none
  | fuel + 1, s, off, rest =>
    let chunk := rest.take mem_chunk
    (rpc fault s (.WriteMem (start_addr + off) (encode_hex (chunk.map UInt8.toNat)))).bind fun
      | (s, some .Ok) => write_loop start_addr fuel s (off + chunk.length) (rest.drop mem_chunk)
      | (s, _) => some (s, .error .NonFatal)

/-- `write_addrs`. -/
def write_addrs (s : ClusterGdbTarget E) (start_addr : UInt32) (data : List UInt8) :
    Option (ClusterGdbTarget E × Except TargetError Unit) :=
  write_loop fault start_addr.toNat data.length s 0 data

end ClusterGdbTarget

end service

end Rl78Sim
