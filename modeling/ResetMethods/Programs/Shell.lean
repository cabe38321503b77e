import ResetMethods.Programs.External

/-!
# ResetMethods.Programs.Shell

Small shell scripts, as far as a script that stands in for a formatter needs them.

* `Shell.read` : the commands of a script. Words may be quoted; commands are joined by line breaks,
  semicolons, `&&`, `||` and `|`; output can be sent to the other descriptor or to nowhere.
* `Shell.utility` : what the known utilities do with their input.
* `Shell.run` : what a script writes and how it ends.

Variables and control structures are not known, and no file is read or written.
-/

namespace ResetMethods
namespace Shell

inductive Redirect where
  | nowhere
  | descriptor (n : Nat)
  | closed
  deriving DecidableEq, Repr, Inhabited

inductive Joint where
  | always
  | onSuccess
  | onFailure
  | pipe
  deriving DecidableEq, Repr, Inhabited

inductive Part where
  | word (text : String)
  | redirect (descriptor : Nat) (target : Redirect)
  | joint (j : Joint)
  | newline
  deriving DecidableEq, Repr, Inhabited

def isBreak (c : Char) : Bool := " \t\n;&|<>".toList.contains c

def finish (word : Option (List Char)) : List Part :=
  match word with
  | some cs => [.word (String.ofList cs.reverse)]
  | none => []

/-- The text in single quotes up to the closing one, and the text behind it. -/
def singleQuoted (cs : List Char) : List Char × List Char :=
  (cs.takeWhile (· ≠ '\''), (cs.dropWhile (· ≠ '\'')).drop 1)

/-- The text in double quotes up to the closing one, and the text behind it. -/
def doubleQuoted : List Char → List Char × List Char
  | [] => ([], [])
  | '"' :: cs => ([], cs)
  | '\\' :: c :: cs =>
    let (inside, rest) := doubleQuoted cs
    if "\\\"$\x60".toList.contains c then (c :: inside, rest) else ('\\' :: c :: inside, rest)
  | c :: cs =>
    let (inside, rest) := doubleQuoted cs
    (c :: inside, rest)

/-- What stands behind a redirection sign, and the text behind that. -/
def redirection (cs : List Char) : Redirect × List Char :=
  let cs := if cs.head? = some '>' then cs.tail else cs
  match cs with
  | '&' :: '-' :: rest => (.closed, rest)
  | '&' :: rest =>
    let digits := rest.takeWhile (!isBreak ·)
    match (String.ofList digits).toNat? with
    | some n => (.descriptor n, rest.drop digits.length)
    | none => (.nowhere, rest.drop digits.length)
  | _ =>
    let rest := cs.dropWhile (· = ' ')
    (.nowhere, rest.dropWhile (!isBreak ·))

/-- Splits a descriptor number off the word before a redirection sign. -/
def descriptorOf (word : Option (List Char)) (default : Nat) : List Part × Nat :=
  match word.bind fun cs => (String.ofList cs.reverse).toNat? with
  | some n => ([], n)
  | none => (finish word, default)

/-- The parts of a script. Every step reads a character at least, so `fuel` may be the length of
the script. -/
def partsFrom : Nat → Option (List Char) → List Char → List Part
  | 0, word, _ => finish word
  | _, word, [] => finish word
  | fuel + 1, word, c :: cs =>
    match c, cs with
    | '\n', _ => finish word ++ .newline :: partsFrom fuel none cs
    | ';', _ => finish word ++ .joint .always :: partsFrom fuel none cs
    | '&', '&' :: rest => finish word ++ .joint .onSuccess :: partsFrom fuel none rest
    | '|', '|' :: rest => finish word ++ .joint .onFailure :: partsFrom fuel none rest
    | '|', _ => finish word ++ .joint .pipe :: partsFrom fuel none cs
    | '>', _ =>
      let (before, n) := descriptorOf word 1
      let (target, rest) := redirection cs
      before ++ .redirect n target :: partsFrom fuel none rest
    | '<', _ =>
      let (before, n) := descriptorOf word 0
      let (target, rest) := redirection cs
      before ++ .redirect n target :: partsFrom fuel none rest
    | '\'', _ =>
      let (inside, rest) := singleQuoted cs
      partsFrom fuel (some (inside.reverse ++ word.getD [])) rest
    | '"', _ =>
      let (inside, rest) := doubleQuoted cs
      partsFrom fuel (some (inside.reverse ++ word.getD [])) rest
    | '\\', d :: rest => partsFrom fuel (some (d :: word.getD [])) rest
    | _, _ =>
      if c = ' ' ∨ c = '\t' then finish word ++ partsFrom fuel none cs
      else if c = '#' ∧ word.isNone then partsFrom fuel none (cs.dropWhile (· ≠ '\n'))
      else partsFrom fuel (some (c :: word.getD [])) cs

structure Command where
  joint : Joint
  words : List String
  redirects : List (Nat × Redirect)
  line : Nat
  deriving DecidableEq, Repr, Inhabited

def Command.isEmpty (c : Command) : Bool := c.words.isEmpty && c.redirects.isEmpty

/-- The commands of some parts, the last one being read so far. -/
def commandsFrom (current : Command) : List Part → List Command
  | [] => [current]
  | .word text :: rest => commandsFrom { current with words := current.words ++ [text] } rest
  | .redirect n target :: rest =>
    commandsFrom { current with redirects := current.redirects ++ [(n, target)] } rest
  | .joint j :: rest => current :: commandsFrom ⟨j, [], [], current.line⟩ rest
  | .newline :: rest =>
    if current.isEmpty && current.joint != .always then
      commandsFrom { current with line := current.line + 1 } rest
    else current :: commandsFrom ⟨.always, [], [], current.line + 1⟩ rest

def read (script : List Char) : List Command :=
  (commandsFrom ⟨.always, [], [], 1⟩ (partsFrom script.length none script)).filter (!·.isEmpty)

/-- What a utility does: what it writes, what it leaves unread, and its exit code. -/
structure Effect where
  output : List UInt8
  errors : List UInt8
  unread : List UInt8
  code : Nat
  deriving DecidableEq, Repr, Inhabited

def bytesOf (text : String) : List UInt8 := text.toUTF8.toList

def escapes : List (Char × Nat) :=
  [('n', 10), ('t', 9), ('r', 13), ('\\', 92), ('a', 7), ('b', 8), ('f', 12), ('v', 11)]

def octalValue (digits : List Char) : Nat := digits.foldl (fun n c => n * 8 + (c.toNat - 48)) 0

/-- The bytes of a text with its escapes resolved. -/
def unescape : Nat → List Char → List UInt8
  | 0, _ => []
  | _, [] => []
  | fuel + 1, '\\' :: c :: cs =>
    match escapes.lookup c with
    | some n => UInt8.ofNat n :: unescape fuel cs
    | none =>
      let digits := ((c :: cs).takeWhile fun d => '0' ≤ d && d ≤ '7').take 3
      if digits.isEmpty then bytesOf (String.ofList ['\\', c]) ++ unescape fuel cs
      else UInt8.ofNat (octalValue digits) :: unescape fuel ((c :: cs).drop digits.length)
  | fuel + 1, c :: cs => bytesOf c.toString ++ unescape fuel cs

/-- The format of a printed text with its arguments in the places that ask for them. -/
def fillIn : Nat → List Char → List String → List Char
  | 0, _, _ => []
  | _, [], _ => []
  | fuel + 1, '%' :: '%' :: cs, args => '%' :: fillIn fuel cs args
  | fuel + 1, '%' :: 's' :: cs, args => (args.head?.getD "").toList ++ fillIn fuel cs args.tail
  | fuel + 1, '%' :: 'd' :: cs, args => (args.head?.getD "0").toList ++ fillIn fuel cs args.tail
  | fuel + 1, '\\' :: c :: cs, args => '\\' :: c :: fillIn fuel cs args
  | fuel + 1, c :: cs, args => c :: fillIn fuel cs args

/-- The bytes of a text with its escapes resolved. -/
def unescaped (text : List Char) : List UInt8 := unescape (text.length + 1) text

/-- A set of bytes, in which a dash stands for all bytes between its neighbours. -/
def byteSet : List UInt8 → List UInt8
  | a :: 45 :: b :: rest =>
    ((List.range (b.toNat + 1 - a.toNat)).map fun i => UInt8.ofNat (a.toNat + i)) ++ byteSet rest
  | a :: rest => a :: byteSet rest
  | [] => []

/-- The byte at the place in the second set that `b` has in the first. Where the second set is too
short its last byte counts. -/
def exchange (source target : List UInt8) (b : UInt8) : UInt8 :=
  match source.idxOf? b with
  | some i => (target[i]?).getD (target.getLast?.getD b)
  | none => b

def firstLines : Nat → List UInt8 → List UInt8
  | 0, _ => []
  | _, [] => []
  | n + 1, 10 :: bs => 10 :: firstLines n bs
  | n + 1, b :: bs => b :: firstLines (n + 1) bs

/-- The text with `target` in place of `source`, everywhere or at the first place only. -/
def substitute (source target : List UInt8) (everywhere : Bool) : Nat → List UInt8 → List UInt8
  | 0, bytes => bytes
  | _, [] => []
  | fuel + 1, b :: bytes =>
    match Text.after? source (b :: bytes) with
    | some rest =>
      target ++ if everywhere then substitute source target everywhere fuel rest else rest
    | none => b :: substitute source target everywhere fuel bytes

/-- The bytes line by line, each line with its line feed. -/
def byteLines : List UInt8 → List (List UInt8)
  | [] => []
  | b :: bytes =>
    if b = 10 then [10] :: byteLines bytes
    else
      match byteLines bytes with
      | line :: lines => (b :: line) :: lines
      | [] => [[b]]

/-- Characters that a pattern gives a meaning of its own. -/
def isPatternSign (c : Char) : Bool := "\\.*[]^$&".toList.contains c

/-- A substitution command of plain texts: what to look for, what to put there, and whether
everywhere on a line. -/
def substitution? (script : String) : Option (List UInt8 × List UInt8 × Bool) :=
  match script.toList with
  | 's' :: delimiter :: cs =>
    match Text.pieces delimiter cs with
    | [source, target, flags] =>
      if source.isEmpty || (source ++ target).any isPatternSign then none
      else
        let bytes (text : List Char) : List UInt8 := bytesOf (String.ofList text)
        if flags = [] then some (bytes source, bytes target, false)
        else if flags = ['g'] then some (bytes source, bytes target, true)
        else none
    | _ => none
  | _ => none

def writes (output : List UInt8) (input : List UInt8) : Effect := ⟨output, [], input, 0⟩

/-- What the utility `name` does; `none` if it is not known. -/
def utility (name : String) (args : List String) (input : List UInt8) : Option Effect :=
  match name, args with
  | "cat", [] | "cat", ["-"] | "tee", [] => some ⟨input, [], [], 0⟩
  | "true", _ | ":", _ | "sleep", _ | "set", _ | "trap", _ => some (writes [] input)
  | "false", _ => some ⟨[], [], input, 1⟩
  | "echo", "-n" :: words => some (writes (unescaped (Text.join " " words).toList) input)
  | "echo", words => some (writes (unescaped (Text.join " " words ++ "\n").toList) input)
  | "printf", format :: words =>
    some (writes (unescaped (fillIn (format.length + 1) format.toList words)) input)
  | "tr", ["-d", set] =>
    let dropped := byteSet (unescaped set.toList)
    some ⟨input.filter (!dropped.contains ·), [], [], 0⟩
  | "tr", [source, target] =>
    let source := byteSet (unescaped source.toList)
    let target := byteSet (unescaped target.toList)
    some ⟨input.map (exchange source target), [], [], 0⟩
  | "sed", [command] =>
    (substitution? command).map fun (source, target, everywhere) =>
      ⟨(byteLines input).flatMap fun line =>
        substitute source target everywhere line.length line, [], [], 0⟩
  | "head", [] => some ⟨firstLines 10 input, [], [], 0⟩
  | "head", ["-n", n] => n.toNat?.map fun n => ⟨firstLines n input, [], [], 0⟩
  | "head", ["-c", n] => n.toNat?.map fun n => ⟨input.take n, [], [], 0⟩
  | _, _ => none

/-- A running shell: the input not yet read, what has been written, where its own descriptors go,
and the exit code of the command before. -/
structure State where
  input : List UInt8
  output : List UInt8
  errors : List UInt8
  redirects : List (Nat × Redirect)
  code : Nat
  deriving DecidableEq, Repr, Inhabited

/-- Where a descriptor leads through some redirections, the latest first. -/
def destination : List (Nat × Redirect) → Nat → Option Nat
  | [], n => some n
  | (m, target) :: earlier, n =>
    if m = n then
      match target with
      | .nowhere | .closed => none
      | .descriptor k => destination earlier k
    else destination earlier n

def State.write (s : State) (redirects : List (Nat × Redirect)) (descriptor : Nat)
    (bytes : List UInt8) : State :=
  match destination redirects descriptor with
  | some 1 => { s with output := s.output ++ bytes }
  | some 2 => { s with errors := s.errors ++ bytes }
  | _ => s

/-- The signal that a text names, by number or by name. -/
def signal? (text : String) : Option Nat :=
  match text.toNat? with
  | some n => some n
  | none =>
    (signalNames.find? fun (_, name) => name == text || name == "SIG" ++ text).map (·.1)

/-- How the script itself ends, if a command asks for that. -/
def ending? (code : Nat) (words : List String) : Option ExitStatus :=
  match words with
  | ["exit"] => some (.code code)
  | ["exit", n] => n.toNat?.map fun n => .code (n % 256)
  | ["kill", signal, "$$"] =>
    match signal.toList with
    | '-' :: name => (signal? (String.ofList name)).map .signal
    | _ => none
  | _ => none

/-- Runs a utility on the script's input, or on what a pipe brings. Output goes on into a pipe, if
there is one behind it. -/
def runUtility (script : String) (s : State) (piped : Option (List UInt8)) (toPipe : Bool)
    (c : Command) (name : String) (args : List String) : State × Option (List UInt8) :=
  let redirects := c.redirects.reverse ++ s.redirects
  let input := if (destination redirects 0).isNone then [] else piped.getD s.input
  let effect :=
    (utility name args input).getD
      ⟨[], bytesOf (script ++ ": " ++ toString c.line ++ ": " ++ name ++ ": not found\n"), input, 127⟩
  let s :=
    if piped.isNone && (destination redirects 0).isSome then { s with input := effect.unread }
    else s
  let s := { s.write redirects 2 effect.errors with code := effect.code }
  if toPipe && (destination c.redirects.reverse 1) == some 1 then (s, some effect.output)
  else (s.write redirects 1 effect.output, if toPipe then some [] else none)

/-- Whether a command runs after one that ended with `code`. -/
def isDue (joint : Joint) (code : Nat) : Bool :=
  match joint with
  | .always | .pipe => true
  | .onSuccess => code == 0
  | .onFailure => code != 0

def feedsPipe : List Command → Bool
  | next :: _ => next.joint == .pipe
  | [] => false

def runCommands (script : String) (s : State) (piped : Option (List UInt8)) :
    List Command → ExitStatus × State
  | [] => (.code s.code, s)
  | c :: rest =>
    if !isDue c.joint s.code then runCommands script s none rest
    else
      match c.words with
      | "exec" :: [] =>
        runCommands script { s with redirects := c.redirects.reverse ++ s.redirects, code := 0 }
          none rest
      | "exec" :: name :: args =>
        let (s, _) := runUtility script s piped false c name args
        (.code s.code, s)
      | [] => runCommands script { s with code := 0 } none rest
      | name :: args =>
        match ending? s.code c.words with
        | some status => (status, s)
        | none =>
          let (s, piped) := runUtility script s piped (feedsPipe rest) c name args
          runCommands script s piped rest

/-- Runs the script at the path `script` on some input. -/
def run (script : String) (text : String) (input : ByteArray) : Completion :=
  let (status, s) := runCommands script ⟨input.toList, [], [], [], 0⟩ none (read text.toList)
  ⟨status, ⟨s.output.toArray⟩, ⟨s.errors.toArray⟩⟩

end Shell
end ResetMethods
