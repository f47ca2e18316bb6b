import LineShell.Text.Numeral

/-! How a child process stands, as told by the status word the system keeps of it. The low seven
bits of a word name the signal that ended the child; they are zero for a child that left by
itself, whose status is then in the next byte, and all ones for one that is stopped. -/

namespace LineShell

/-- The word the system keeps of a child that has ended or stopped. -/
abbrev StatusWord := UInt32

inductive ChildState
  | running
  | exited (status : Nat)
  | signaled (signal : Nat)
  | stopped (signal : Nat)
  /-- The child is gone, and its word was given to someone else. -/
  | reaped
  deriving Repr, DecidableEq

namespace ChildState

def ofWord (word : StatusWord) : ChildState :=
  let low := word &&& 0x7f
  let next := ((word >>> 8) &&& 0xff).toNat
  if low = 0 then exited next
  else if low ≠ 0x7f then signaled low.toNat
  else if word &&& 0xff = 0x7f then stopped next
  else running

def display : ChildState → Text
  | running => "Running".toList
  | exited 0 | reaped => "Done".toList
  | exited status => "Exit ".toList ++ decimal status
  | signaled signal => "Terminated (signal ".toList ++ decimal signal ++ [')']
  | stopped signal => "Stopped (signal ".toList ++ decimal signal ++ [')']

end ChildState

/-- How a process ends: by itself with a status, of which the system keeps one byte, or by a
signal. -/
inductive Ending
  | exited (status : Nat)
  | signaled (signal : Nat)
  deriving Repr, DecidableEq

def Ending.word : Ending → StatusWord
  | exited status => UInt32.ofNat (status % 256) <<< 8
  | signaled signal => UInt32.ofNat (signal % 128)

end LineShell
