import PseudoBoolean.Report
import PseudoBoolean.Text.WhiteSpace

namespace PseudoBoolean.CommandLine

structure Invocation where
  words : List String := []
  interactive : Bool := false
  latex : Bool := false
  noCnf : Bool := false
  noInput : Bool := false
deriving DecidableEq

inductive Command
  | version
  | run (invocation : Invocation)
deriving DecidableEq

inductive Flag
  | interactive
  | latex
  | noCnf
  | noInput
  | version
deriving DecidableEq

def Flag.ofLong? (name : String) : Option Flag :=
  match name with
  | "--interactive" => some .interactive
  | "--latex" => some .latex
  | "--no-cnf" => some .noCnf
  | "--no-input" => some .noInput
  | "--version" => some .version
  | _ => none

def Flag.ofShort? (c : Char) : Option Flag :=
  match c with
  | 'i' => some .interactive
  | 'l' => some .latex
  | 'V' => some .version
  | _ => none

/-- What an argument is: a word, flags in the order in which they are given, or the mark after which
all arguments are words; `none` among the flags stands for one that does not exist. -/
inductive Argument
  | word
  | flags (flags : List (Option Flag))
  | onlyWords

def Argument.ofText (text : String) : Argument :=
  match text.toList with
  | ['-'] => .word
  | ['-', '-'] => .onlyWords
  | '-' :: '-' :: _ => .flags [Flag.ofLong? text]
  | '-' :: cs => .flags (cs.map Flag.ofShort?)
  | _ => .word

inductive Stop
  | version
  | usage

def Invocation.raise (i : Invocation) : Option Flag → Except Stop Invocation
  | some .interactive => if i.interactive then .error .usage else .ok { i with interactive := true }
  | some .latex => if i.latex then .error .usage else .ok { i with latex := true }
  | some .noCnf => if i.noCnf then .error .usage else .ok { i with noCnf := true }
  | some .noInput => if i.noInput then .error .usage else .ok { i with noInput := true }
  | some .version => .error .version
  | none => .error .usage

def Invocation.ofArguments (i : Invocation) : List String → Except Stop Invocation
  | [] => .ok i
  | text :: texts =>
    match Argument.ofText text with
    | .word => ofArguments { i with words := i.words ++ [text] } texts
    | .flags flags => do ofArguments (← flags.foldlM raise i) texts
    | .onlyWords => .ok { i with words := i.words ++ texts }

def Command.ofArguments? (arguments : List String) : Option Command :=
  match Invocation.ofArguments {} arguments with
  | .ok i => some (.run i)
  | .error .version => some .version
  | .error .usage => none

def Invocation.reportOptions (i : Invocation) : ReportOptions where
  format := if i.latex then .latex else .text
  showInput := !i.noInput
  showCnf := !i.noCnf

def Invocation.source (i : Invocation) : String := " ".intercalate i.words

structure Answer where
  stdout : String := ""
  stderr : String := ""
  exit? : Option UInt32 := none
deriving DecidableEq

def Answer.then (a b : Answer) : Answer := ⟨a.stdout ++ b.stdout, a.stderr ++ b.stderr, b.exit?⟩

def versionText : String := "bool2pb 0.1.0"

def report (options : ReportOptions) (source : String) : Except String String :=
  match compile source with
  | .ok c => .ok (c.report options)
  | .error e => .error (e.render ++ "\n")

def reply (options : ReportOptions) (line : Option (List UInt8)) : Answer :=
  match line with
  | none => { stdout := "\n", exit? := some 0 }
  | some bytes =>
    match String.fromUTF8? ⟨bytes.toArray⟩ with
    | none =>
      let failure := StreamFailure.mk "InvalidData" "stream did not contain valid UTF-8"
      { stderr := "Error reading input: " ++ toString (CompileFailure.stream failure) ++ "\n", exit? := some 1 }
    | some text =>
      if text.toList.all Text.isWhiteSpace then {}
      else
        match report options text with
        | .ok text => { stdout := text }
        | .error text => { stderr := text }

def prompt : Answer := { stdout := "> " }

def converse (options : ReportOptions) : List (List UInt8) → Answer
  | [] => prompt.then (reply options none)
  | line :: lines =>
    let answer := prompt.then (reply options (some line))
    if answer.exit?.isSome then answer else answer.then (converse options lines)

def dropReturn : List UInt8 → List UInt8
  | 13 :: line => line
  | line => line

def linesFrom (line : List UInt8) : List UInt8 → List (List UInt8)
  -- The bytes of `line` are in reverse order, and the last line may lack its newline.
  | [] => if line.isEmpty then [] else [line.reverse]
  | 10 :: bytes => (dropReturn line).reverse :: linesFrom [] bytes
  | b :: bytes => linesFrom (b :: line) bytes

def lines (input : List UInt8) : List (List UInt8) := linesFrom [] input

def Invocation.start (i : Invocation) : Answer :=
  if i.words.isEmpty then
    if i.interactive then {}
    else
      { stderr := "No expression given. Pass one as arguments or use --interactive.\n", exit? := some 2 }
  else
    match report i.reportOptions i.source with
    | .ok text => { stdout := text, exit? := if i.interactive then none else some 0 }
    | .error text => { stderr := text, exit? := if i.interactive then none else some 1 }

def Command.answer (command : Command) (input : List UInt8) : Answer :=
  match command with
  | .version => { stdout := versionText ++ "\n", exit? := some 0 }
  | .run i =>
    let answer := i.start
    if answer.exit?.isSome then answer else answer.then (converse i.reportOptions (lines input))

end PseudoBoolean.CommandLine
