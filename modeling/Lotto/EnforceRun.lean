import Lotto.Enforce

namespace Lotto.Enforce

open MemoryMap Library.FaultRun

section Step

variable {config : EnforceConfig}

def saved (config : EnforceConfig) (clk : Nat) (st : EnforceState) (c : Capture) : EnforceState :=
  { cp := if config.has .cat || config.has .tid || config.has .address then c.cp else st.cp
    addr := if config.has .address && hasMemaccessAddr config c.cp then c.addr else st.addr
    val := if savesVal config c.cp then currentVal c else st.val
    clk
    pc := if config.has .pc then stablePc config c else st.pc
    seed := if config.has .seed then c.seed else st.seed }

variable (enabled : config.enabled = true) (active : config.modes ≠ 0)
include enabled active

end Step

section Recording

variable {config : EnforceConfig}

structure Saved (config : EnforceConfig) (past : List Capture) (st : EnforceState) : Prop where
  clk : st.clk = past.length
  cp : (config.has .cat || config.has .tid || config.has .address) = true →
    ∀ c, past.getLast? = some c → st.cp = c.cp
  addr : config.has .address = true → st.addr = lastAddr config past
  val : config.has .data = true → st.val = lastVal config past
  pc : config.has .pc = true → ∀ c, past.getLast? = some c → st.pc = stablePc config c
  seed : config.has .seed = true → ∀ c, past.getLast? = some c → st.seed = c.seed

end Recording

section Checking

variable {config : EnforceConfig}

end Checking

section Replay

variable {config : EnforceConfig} {os : List Capture} {marks replayed : Nat → Bool}

end Replay

section Sample

def sampleConfig : EnforceConfig := ⟨true, 0x56, .mask, fun t => if t = 1 then .read else .other⟩

def sampleCapture (id : TaskId) (byte : UInt8) : Capture :=
  { cp := { chainId := 9, typeId := 1, blocking := false, id, pc := 0, payloadAddr := 0 }
    addr := 64, size := 1, memory := fun _ => byte, maps := [], seed := 5 }

end Sample

end Lotto.Enforce
