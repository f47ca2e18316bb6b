import LineShell.Builtin.Basic

/-! `cd` and `pwd`. After a change of directory `PWD` holds the way the user took, with its links,
if that way leads where the shell now stands, and otherwise the path without links. The directory
that is left is remembered for `cd -`. -/

namespace LineShell.Builtin

/-- Where an operand of `cd` leads, and how it is called in a complaint. -/
def cdTarget (world : World) : Option Text → Except CommandError (Text × Text)
  | none => (world.home.mapError .env).map fun home => (home, home)
  | some operand =>
    if operand = ['-'] then
      match world.session.previousDir with
      | some previous => .ok (previous, previous)
      | none => .error (.execution "OLDPWD not set".toList)
    else (world.expandTilde operand).mapError .env |>.map fun target => (target, operand)

/-- The directory that is being left. Once it has been removed only `PWD` still names it. -/
def dirToLeave (world : World) : Option Text :=
  match world.logicalDir with
  | .ok dir => some dir
  | .error _ => world.absolutePwd

/-- The way to `target` as the user took it from `previous`. -/
def wayTaken (previous : Option Text) (target : Text) : Option Text :=
  match previous with
  | some base => some (Path.lexicalJoin base target)
  | none => if Path.isAbsolute target then some (Path.lexicalJoin ['/'] target) else none

/-- The name of the directory in which the shell stands after it went to `target`. -/
def nameOfNew (world : World) (previous : Option Text) (target : Text) : Text :=
  match (wayTaken previous target).filter (world.sameFile · ['.']) with
  | some way => way
  | none =>
    match world.physicalDir with
    | .ok dir => dir
    | .error _ => target

/-- The world in which a directory that was left is remembered. -/
def remember (world : World) : Option Text → World
  | none => world
  | some dir =>
    let world := world.setenv "OLDPWD" dir
    { world with session := { world.session with previousDir := some dir } }

def runCd (output : Output) (args : List Text) : Act CommandError Verdict := do
  let operands := args.tail
  if 1 < operands.length then Act.fail tooManyArguments
  let world ← get
  let (target, shown) ← Act.ofExcept (cdTarget world operands.head?)
  let left := dirToLeave world
  match world.changeDir target with
  | .error e => Act.fail (.execution (shown ++ ": ".toList ++ e.describe))
  | .ok moved =>
    let dir := nameOfNew moved left target
    set ((remember moved left).setenv "PWD" dir)
    if operands.head? = some ['-'] then output.line dir
    return .proceed

def runPwd (output : Output) (args : List Text) : Act CommandError Verdict := do
  let world ← get
  match args.tail.head? with
  | none => output.line (← Act.ofExcept (world.logicalDir.mapError .io))
  | some option =>
    if option = "-L".toList then
      output.line (← Act.ofExcept (world.logicalDir.mapError .io))
    else if option = "-P".toList then
      output.line (← Act.ofExcept (world.physicalDir.mapError .io))
    else
      Act.fail (.invalidArguments (option ++ ": invalid option\nusage: ".toList ++ pwd.usage))
  return .proceed

end LineShell.Builtin
