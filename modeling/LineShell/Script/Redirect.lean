import LineShell.Script.Expansion

/-! Redirections. The words of all redirections of a command are expanded first; then they are
applied one after the other. What a descriptor has led to is kept on a high descriptor until the
command has ended, unless the redirection is to stay. -/

namespace LineShell.Script

/-- A redirection whose words have been expanded. Without a source a descriptor is closed. -/
inductive Prepared
  | file (fd : Nat) (opening : Opening) (path : Text)
  | duplicate (fd : Nat) (source : Option Nat)
  | document (fd : Nat) (number : Nat) (expands : Bool)

def Prepared.fd : Prepared → Nat
  | file fd _ _ | duplicate fd _ | document fd _ _ => fd

/-- Descriptors from here on are out of the way of scripts. -/
def firstSpare : Nat := 10

/-- How many bytes of a document are written to a pipe before anybody reads it. -/
def documentPiece : Nat := 4096

namespace Redirection

/-- A redirection with its words expanded. -/
def prepare (substitute : Substitution) : Redirection → Run Prepared
  | .file fd opening target =>
    return .file fd opening (← expandText substitute { hasTilde := true } target)
  | .duplicate fd _ target => do
    match ← expandText substitute { hasTilde := true } target with
    | ['-'] => return .duplicate fd none
    | [c] =>
      if c.isDigit then return .duplicate fd (some (c.toNat - '0'.toNat))
      else Run.fail "Syntax error: Bad fd number".toList
    | _ => Run.fail "Syntax error: Bad fd number".toList
  | .document fd number expands => return .document fd number expands

end Redirection

namespace Run

/-- Why a file cannot be opened. -/
def openText (e : Errno) : Text :=
  if e = .noEntry ∨ e = .notDirectory then "No such file".toList else e.text

/-- Why a file cannot be made. -/
def createText (e : Errno) : Text :=
  if e = .noEntry ∨ e = .notDirectory then "Directory nonexistent".toList else e.text

/-- Opens a file for writing that must not be there already, unless it is no regular file. -/
def openFresh (path : Text) : Run (Except Errno Nat) := do
  match ← ask (Program.statusAt path) with
  | .error _ => ask (Program.openFile path .fresh)
  | .ok status =>
    if status.kind = .regular then return .error .alreadyExists
    else ask (Program.openFile path { writes := true })

/-- Opens the file of a redirection. -/
def openTarget (opening : Opening) (path : Text) : Run Nat := do
  let protects : Bool := (← get).hasMode 'C'
  let result ← match opening with
    | .input => ask (Program.openFile path .input)
    | .both => ask (Program.openFile path .update)
    | .append => ask (Program.openFile path .append)
    | .overwrite => ask (Program.openFile path .output)
    | .output => if protects then openFresh path else ask (Program.openFile path .output)
  match result with
  | .ok fd => return fd
  | .error e =>
    if opening = .input then fail ("cannot open ".toList ++ path ++ ": ".toList ++ openText e)
    else fail ("cannot create ".toList ++ path ++ ": ".toList ++ createText e)

/-- Opens a pipe from which a document can be read. A long one is written by a process of its
own. -/
def openDocument (substitute : Substitution) (number : Nat) (expands : Bool) : Run Nat := do
  let word := ((← get).documents.lookup number).getD []
  match ← ask Program.pipe with
  | .error _ => fail "Pipe call failed".toList
  | .ok (readEnd, writeEnd) =>
    let text ← if expands then expandText substitute { isQuoted := true } word
      else pure word.bare
    if text.length ≤ documentPiece then
      let _ ← send writeEnd text
    else
      let child : Program Nat := do
        Program.close readEnd
        let _ ← Program.writeAll writeEnd (octetBytes text)
        return 0
      let _ ← ask (Program.fork child.code)
    ask (Program.close writeEnd)
    return readEnd

/-- Keeps what a descriptor leads to, unless that is kept already. -/
def keepDescriptor (fd : Nat) (isNew : Bool) : Run Unit := do
  match (← get).redirected with
  | [] => pure ()
  | frame :: outer =>
    if frame.any (·.1 = fd) then return
    let copy ← if isNew then pure none
      else match ← ask (Program.duplicate fd firstSpare true) with
        | .error _ => pure none
        | .ok copy =>
          ask (Program.close fd)
          pure (some copy)
    modify fun c => { c with redirected := ((fd, copy) :: frame) :: outer }

/-- Applies a redirection. -/
def apply (substitute : Substitution) (keeps : Bool) (p : Prepared) : Run Unit := do
  let fd := p.fd
  let move (opened : Nat) : Run Unit := do
    if keeps then keepDescriptor fd (opened = fd)
    if opened ≠ fd then
      let _ ← ask (Program.redirect opened fd)
      ask (Program.close opened)
  match p with
  | .file _ opening path => move (← openTarget opening path)
  | .document _ number expands => move (← openDocument substitute number expands)
  | .duplicate _ none =>
    if keeps then keepDescriptor fd false
    ask (Program.close fd)
  | .duplicate _ (some source) =>
    if source ≠ fd then
      if keeps then keepDescriptor fd false
      match ← ask (Program.redirect source fd) with
      | .ok () => pure ()
      | .error e => fail (decimal source ++ ": ".toList ++ e.text)

/-- Opens a frame in which redirections are kept. -/
def openFrame : Run Unit := modify fun c => { c with redirected := [] :: c.redirected }

/-- Puts back what the innermost frame has kept, or lets its redirections stay. -/
def closeFrame (stays : Bool) : Run Unit := do
  match (← get).redirected with
  | [] => pure ()
  | frame :: outer =>
    modify fun c => { c with redirected := outer }
    frame.forM fun (fd, copy) => do
      match copy with
      | none => if !stays then ask (Program.close fd)
      | some copy =>
        if !stays then
          let _ ← ask (Program.redirect copy fd)
        ask (Program.close copy)

/-- Puts back everything beyond a number of frames. -/
def closeFramesTo (depth : Nat) : (bound : Nat) → Run Unit
  | 0 => pure ()
  | bound + 1 => do
    if depth < (← get).redirected.length then
      closeFrame false
      closeFramesTo depth bound

/-- Puts back the variables of everything beyond a number of frames. -/
def restoreTo (depth : Nat) : (bound : Nat) → Run Unit
  | 0 => pure ()
  | bound + 1 => do
    if depth < (← get).saved.length then
      restore
      restoreTo depth bound

/-- Applies redirections; the answer is a status, which is not zero if one of them failed. -/
def applyAll (substitute : Substitution) (keeps : Bool) (prepared : List Prepared) : Run Nat := do
  match ← attempt (prepared.forM (apply substitute keeps)) with
  | .ok () => return 0
  | .error .error => return 2
  | .error how => throw how

end Run
end LineShell.Script
