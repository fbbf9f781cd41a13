import Capture.Foundations.LineStream
import Capture.Model.CaptureCxx

/-! # The loops of the `/proc` readers

Six readers open a file and run `while (!s.eof()) { s.getline(buffer, 1024); … }` over it.
The modules before this one take the buffers of a loop that ends; here are the loops, over
the stream of the file. Their result is `none` when the fuel runs out. -/
namespace Capture
open SeparatedText FormattedScan LineStream

set_option autoImplicit false

/-- The size of the array `buffer` in every reader. -/
def bufferSize : ℕ := 1024

/-- Open the file, which fails for `none`, and run the loop. -/
def readLoop {β : Type} (body : β → Text → β × Bool) (fuel : ℕ) (file : Option (Stream Char)) (acc : β) :
    Option (ℤ × β) :=
  match file with
  | none => some (capProcessOpen, acc)
  | some s => (loop '\n' bufferSize body fuel acc s).map fun acc => (0, acc)

namespace CapProcess

def parseStatusLoop : ℕ → Option (Stream Char) → CapProcess → Option (ℤ × CapProcess) :=
  readLoop fun p buffer => (parseStatusLine p buffer, false)

def parseIoLoop : ℕ → Option (Stream Char) → CapProcess → Option (ℤ × CapProcess) :=
  readLoop fun p buffer => (parseIoLine p buffer, false)

def parseStatLoop (call : ℕ) : ℕ → Option (Stream Char) → CapProcess → Option (ℤ × CapProcess) :=
  readLoop fun p buffer => ((statTicks buffer).elim p (advance call p), false)

end CapProcess

def CapInodeHelper.parseLoop (devices : List CapDevice) :
    ℕ → Option (Stream Char) → CapInodeHelper → Option (ℤ × CapInodeHelper) :=
  readLoop fun h buffer => (if cString buffer = [] then h else parseBuffer devices h buffer, false)

namespace CaptureCxx

/-- The line that yields ticks ends the loop with a `break`. -/
def getCpuTotalLoop : ℕ → Option (Stream Char) → CaptureCxx → Option (ℤ × CaptureCxx) :=
  readLoop fun s buffer => ((cpuTicks buffer).elim s fun now =>
    { s with deltaCpu := ⟨s.cpu, ⟨now, some s.calls⟩⟩, cpu := ⟨now, some s.calls⟩ }, (cpuTicks buffer).isSome)

def getMemTotalLoop : ℕ → Option (Stream Char) → CaptureCxx → Option (ℤ × CaptureCxx) :=
  readLoop fun s buffer => ((memTotal buffer).elim s fun now => { s with memory := now }, (memTotal buffer).isSome)

end CaptureCxx
end Capture
