import Mute.Go
import Mathlib.Data.List.Forall2

/-!
# Command completion of mutectrl (ctrlengine)

The interactive loop of `CtrlEngine` (`loop`) lists the commands of its `cli.App` once
with `buildCmdList(c.App.Commands, "")` and installs a completer that offers every listed
command that begins with the text typed so far. A command with `Subcommands` is listed
through its subcommands, each after the group's name and a blank, so that the entry is
the line that runs it (`strings.Fields` splits the line, and `app.Run` dispatches word by
word).

`buildCmdList` passes `cmd.Name+" "` to the recursive call, not `prefix+cmd.Name+" "`:
below the second level the words above the parent group are lost.

- `commandLines`: what the list is for, the line that runs each command, all the names
  on its path.
- **`buildCmdList_suffix_commandLines`**: for every command tree, `buildCmdList` lists one
  entry per command, each a suffix of the line that runs it; a command three levels down
  is listed without its first word.
- **`completer_eq_commandLines`**: on a tree of at most two levels, such as mutectrl's
  (`ctrlCommands`), completion offers exactly the lines that run a command and begin
  with what was typed.
-/

namespace Mute.Ctrl

/-- A `cli.Command` as `buildCmdList` reads it: its `Name`, and whether its
`Subcommands` is nil (`leaf`) or not (`group`, with the subcommands). -/
inductive Command where
  | leaf (name : Bytes)
  | group (name : Bytes) (subcommands : List Command)

mutual
/-- `buildCmdList(commands, prefix)`. -/
def buildCmdList : List Command → Bytes → List Bytes
  | [], _ => []
  | cmd :: cmds, pfx => cmdEntries cmd pfx ++ buildCmdList cmds pfx

/-- What one turn of `buildCmdList`'s loop appends for `cmd`: the list of its
subcommands under `cmd.Name+" "`, or `prefix+cmd.Name`. -/
def cmdEntries : Command → Bytes → List Bytes
  | .group name subs, _ => buildCmdList subs (name ++ lit " ")
  | .leaf name, pfx => [pfx ++ name]
end

/-- The completer `loop` installs (`line.SetCompleter`): the listed commands that begin
with the text typed so far (`strings.HasPrefix(command, line)`), in list order. -/
def completer (commands : List Bytes) (line : Bytes) : List Bytes :=
  commands.filter fun command => line.isPrefixOf command

/-! ## What the list is for -/

mutual
/-- The line that runs each command of `cmds`, below the words `pfx`: every name on the
command's path, separated by blanks. -/
def commandLines : List Command → Bytes → List Bytes
  | [], _ => []
  | cmd :: cmds, pfx => commandLinesOf cmd pfx ++ commandLines cmds pfx

/-- `commandLines` of one command. -/
def commandLinesOf : Command → Bytes → List Bytes
  | .group name subs, pfx => commandLines subs (pfx ++ name ++ lit " ")
  | .leaf name, pfx => [pfx ++ name]
end

mutual
/-- The number of levels of a command: one for a leaf, one more than its subcommands
for a group. -/
def Command.depth : Command → Nat
  | .leaf _ => 1
  | .group _ subs => depthList subs + 1

/-- The number of levels of a command list. -/
def depthList : List Command → Nat
  | [] => 0
  | cmd :: cmds => max cmd.depth (depthList cmds)
end

theorem Command.depth_pos (cmd : Command) : 0 < cmd.depth := by
  cases cmd <;> simp [Command.depth]

theorem depthList_eq_zero {cmds : List Command} (h : depthList cmds = 0) : cmds = [] := by
  cases cmds with
  | nil => rfl
  | cons cmd cmds => have := cmd.depth_pos; simp only [depthList] at h; omega

/-! ## Every depth: entries are suffixes of their lines -/

theorem append_suffix_append {p q : Bytes} (h : p <:+ q) (name : Bytes) : p ++ name <:+ q ++ name :=
  let ⟨t, ht⟩ := h
  ⟨t, by rw [← List.append_assoc, ht]⟩

mutual
/-- Given a prefix that ends the words above the commands, every entry is a suffix of the
line that runs its command. -/
theorem buildCmdList_suffix : ∀ (cmds : List Command) {p q : Bytes}, p <:+ q →
    List.Forall₂ (fun entry line => entry <:+ line) (buildCmdList cmds p) (commandLines cmds q)
  | [], _, _, _ => .nil
  | cmd :: cmds, _, _, h => by
    simp only [buildCmdList, commandLines]
    exact List.rel_append (cmdEntries_suffix cmd h) (buildCmdList_suffix cmds h)

theorem cmdEntries_suffix : ∀ (cmd : Command) {p q : Bytes}, p <:+ q →
    List.Forall₂ (fun entry line => entry <:+ line) (cmdEntries cmd p) (commandLinesOf cmd q)
  | .group name subs, _, q, _ => by
    simp only [cmdEntries, commandLinesOf]
    exact buildCmdList_suffix subs (List.append_assoc q name _ ▸ List.suffix_append q _)
  | .leaf name, _, _, h => .cons (append_suffix_append h name) .nil
end

/-- **Every entry is a suffix of its line**: `buildCmdList` lists one entry per command of
any tree, each a suffix of the line that runs it; a command three levels down is listed
without the name of the group at the top. -/
theorem buildCmdList_suffix_commandLines :
    (∀ cmds : List Command,
      List.Forall₂ (fun entry line => entry <:+ line) (buildCmdList cmds []) (commandLines cmds [])) ∧
    ∀ a b c : Bytes,
      buildCmdList [.group a [.group b [.leaf c]]] [] = [b ++ lit " " ++ c] ∧
        commandLines [.group a [.group b [.leaf c]]] [] = [a ++ lit " " ++ b ++ lit " " ++ c] :=
  ⟨fun cmds => buildCmdList_suffix cmds List.suffix_rfl, fun a b c => by
    simp [buildCmdList, cmdEntries, commandLines, commandLinesOf]⟩

/-! ## Two levels: the list is the lines -/

/-- Commands of at most one level, below any words, are listed as their lines. -/
theorem buildCmdList_of_depthList_le_one : ∀ {cmds : List Command}, depthList cmds ≤ 1 →
    ∀ pfx, buildCmdList cmds pfx = commandLines cmds pfx
  | [], _, _ => rfl
  | .leaf name :: cmds, h, pfx => by
    simp only [depthList, Command.depth, Nat.max_le] at h
    simp only [buildCmdList, cmdEntries, commandLines, commandLinesOf,
      buildCmdList_of_depthList_le_one h.2]
  | .group name subs :: cmds, h, pfx => by
    simp only [depthList, Command.depth, Nat.max_le] at h
    obtain rfl : subs = [] := depthList_eq_zero (by omega)
    simp only [buildCmdList, cmdEntries, commandLines, commandLinesOf, List.nil_append,
      buildCmdList_of_depthList_le_one h.2]

/-- On a tree of at most two levels, `buildCmdList` lists exactly the lines that run its
commands. -/
theorem buildCmdList_of_depthList_le_two : ∀ {cmds : List Command}, depthList cmds ≤ 2 →
    buildCmdList cmds [] = commandLines cmds []
  | [], _ => rfl
  | .leaf name :: cmds, h => by
    simp only [depthList, Command.depth, Nat.max_le] at h
    simp only [buildCmdList, cmdEntries, commandLines, commandLinesOf,
      buildCmdList_of_depthList_le_two h.2]
  | .group name subs :: cmds, h => by
    simp only [depthList, Command.depth, Nat.max_le] at h
    simp only [buildCmdList, cmdEntries, commandLines, commandLinesOf, List.nil_append,
      buildCmdList_of_depthList_le_one (by omega : depthList subs ≤ 1),
      buildCmdList_of_depthList_le_two h.2]

example : buildCmdList [.group (lit "uid") [.leaf (lit "new")], .leaf (lit "quit")] [] =
    [lit "uid new", lit "quit"] := by decide

/-- **Completion is exact on two levels**: on a command tree of at most two levels the
completer offers exactly the lines that run a command and begin with the text typed. -/
theorem completer_eq_commandLines (cmds : List Command) (typed : Bytes) (h : depthList cmds ≤ 2) :
    completer (buildCmdList cmds []) typed = (commandLines cmds []).filter fun line => typed.isPrefixOf line := by
  rw [completer, buildCmdList_of_depthList_le_two h]

/-! ## The commands of mutectrl -/

/-- `ce.app.Commands` as `New` sets it, by the names and nesting `buildCmdList` reads;
commands the source has commented out are not there. (`cli` adds a `help` leaf when the
app runs, which keeps two levels.) -/
def ctrlCommands : List Command :=
  [.leaf (lit "app"),
    .group (lit "db") [.leaf (lit "create"), .leaf (lit "rekey"), .leaf (lit "vacuum"),
      .leaf (lit "version")],
    .group (lit "uid") [.leaf (lit "new"), .leaf (lit "edit"), .leaf (lit "active"),
      .leaf (lit "switch"), .leaf (lit "delete"), .leaf (lit "list")],
    .group (lit "contact") [.leaf (lit "add"), .leaf (lit "edit"), .leaf (lit "remove"),
      .leaf (lit "block"), .leaf (lit "unblock"), .leaf (lit "list"), .leaf (lit "blacklist")],
    .group (lit "msg") [.leaf (lit "add"), .leaf (lit "send"), .leaf (lit "fetch"),
      .leaf (lit "list"), .leaf (lit "read"), .leaf (lit "delete")],
    .group (lit "upkeep") [.leaf (lit "all"), .leaf (lit "fetchconf"), .leaf (lit "update"),
      .leaf (lit "accounts"), .leaf (lit "hashchain")],
    .group (lit "wallet") [.leaf (lit "pubkey"), .leaf (lit "balance")],
    .leaf (lit "quit")]

/-- mutectrl's commands: completion of `uid ` offers the six `uid` commands, each as the
line that runs it. -/
theorem completer_eq_commandLines_ctrl :
    depthList ctrlCommands ≤ 2 ∧
      completer (buildCmdList ctrlCommands []) (lit "uid ") =
        (commandLines ctrlCommands []).filter fun line => (lit "uid ").isPrefixOf line :=
  ⟨by decide, completer_eq_commandLines ctrlCommands (lit "uid ") (by decide)⟩

end Mute.Ctrl
