/-
  File:      Nullgate/Gui/Actions.lean
  Subject:   DEVICE ACTIONS (`actions.rs`): a command line, its placeholders, and the argv.

  The command is split into tokens first. In each token the placeholders are replaced one kind
  after the other, so a value put in may be looked at again.

  * `tokenize`, `expand`, `DeviceAction.run` -- the command line, one token, and what is spawned;
  * `expanded`: the token with its own placeholders replaced, in one pass;
  * **`expansion_verbatim_iff`**: the argv is that of the one pass, and no value is looked at
    again, exactly if there is a command, an address where it asks for one, and no value makes a
    placeholder of a later kind;
  * `expansion_rescans`.
-/
import Nullgate.Gui.Notify
import Nullgate.Lib.Replace
import Nullgate.Roster.Types

namespace Nullgate

open Nullgate.Lib

/-! ## 1. The command line -/

/-- The loop of `tokenize`: the token so far, whether it is quoted, and whether there is one. -/
def tokenizeLoop (cur : List Char) (quoted started : Bool) : List Char → List (List Char)
  | [] => if started then [cur] else []
  | c :: s =>
    if c = '"' then tokenizeLoop cur (!quoted) true s
    else if isWhitespace c && !quoted then
      if started then cur :: tokenizeLoop [] quoted false s
      else tokenizeLoop cur quoted started s
    else tokenizeLoop (cur ++ [c]) quoted true s

/-- **Split a command line into argv**; double quotes group, a backslash is a backslash. -/
def tokenize (s : String) : List String :=
  (tokenizeLoop [] false false s.toList).map String.ofList

/-! ## 2. The placeholders -/

/-- One member's action. -/
structure DeviceAction where
  command : String
  terminal : Bool
  deriving DecidableEq

/-- The name we show for a member. -/
def displayName (m : MemberView) : String :=
  (m.label.or m.hostname).getD (String.ofList (m.nodeId.toList.take 8))

/-- The placeholders in the order they are replaced in, with their values. -/
def placeholders (m : MemberView) : List (List Char × List Char) :=
  [("{ip}".toList, (m.virtualIp.getD "").toList),
   ("{name}".toList, (displayName m).toList),
   ("{hostname}".toList, (m.hostname.getD "").toList),
   ("{node_id}".toList, m.nodeId.toList)]

/-- **Substitute the placeholders in a single argv token**, one kind after the other. -/
def expand (token : String) (m : MemberView) : String :=
  String.ofList (replaceAll (placeholders m) token.toList)

/-- What is spawned. -/
structure Launch where
  terminal : Bool
  program : String
  args : List String
  deriving DecidableEq

/-- **Run an action**, up to the spawn. -/
def DeviceAction.run (action : DeviceAction) (m : MemberView) : Except String Launch :=
  match tokenize action.command with
  | [] => .error "This action has no command to run."
  | program :: args =>
    if count "{ip}".toList action.command.toList ≠ 0 ∧ m.virtualIp = none then
      .error (displayName m ++ " has no Nullgate IP yet.")
    else .ok {
      terminal := action.terminal
      program := expand program m
      args := args.map fun a => expand a m }

/-! ## 3. In one pass -/

/-- **The token with its own placeholders replaced**, in one pass. -/
def expanded (token : String) (m : MemberView) : String :=
  String.ofList (substitute (placeholders m) token.toList)

/-- The patterns of the placeholders. -/
def patterns : List (List Char) :=
  ["{ip}".toList, "{name}".toList, "{hostname}".toList, "{node_id}".toList]

theorem map_placeholders (m : MemberView) : (placeholders m).map Prod.fst = patterns := rfl

/-- **The placeholders are braced words**, none of which begins another. -/
theorem braced_placeholders (m : MemberView) : Braced '{' (placeholders m) := by
  have hin : ∀ r ∈ placeholders m, r.1 ∈ patterns := fun r hr => by
    rw [← map_placeholders m]
    exact List.mem_map_of_mem hr
  have hnodup : ((placeholders m).map Prod.fst).Nodup := by
    rw [map_placeholders]
    decide
  have hopened : ∀ pat ∈ patterns, pat = '{' :: pat.tail ∧ '{' ∉ pat.tail := by decide
  have hapart : ∀ pat ∈ patterns, ∀ pat' ∈ patterns, pat <+: pat' → pat = pat' := by decide
  refine ⟨hnodup.of_map, fun r hr => ⟨_, hopened _ (hin r hr)⟩, fun r hr r' hr' hpre => ?_⟩
  exact List.inj_on_of_nodup_map hnodup hr hr' (hapart _ (hin r hr) _ (hin r' hr') hpre)

/-- **What an action spawns**: one argument for each token. -/
theorem DeviceAction.run_eq_ok_iff {action : DeviceAction} {m : MemberView} {l : Launch} :
    action.run m = .ok l ↔ tokenize action.command ≠ [] ∧
      ¬ (count "{ip}".toList action.command.toList ≠ 0 ∧ m.virtualIp = none) ∧
      l.terminal = action.terminal ∧
      l.program :: l.args = (tokenize action.command).map fun token => expand token m := by
  unfold DeviceAction.run
  cases tokenize action.command with
  | nil => simp
  | cons program args =>
    dsimp only
    by_cases hip : count "{ip}".toList action.command.toList ≠ 0 ∧ m.virtualIp = none
    · rw [if_pos hip]
      exact iff_of_false (fun h => by cases h) fun h => h.2.1 hip
    · rw [if_neg hip]
      constructor
      · rintro ⟨⟩
        exact ⟨List.cons_ne_nil _ _, hip, rfl, rfl⟩
      · obtain ⟨terminal, program', args'⟩ := l
        rintro ⟨-, -, rfl, hargv⟩
        obtain ⟨rfl, rfl⟩ := List.cons.inj hargv
        rfl

/-- **The expansion is verbatim**: the argv has the tokens with their own placeholders replaced, in
    one pass, and each placeholder is found as often as the token has it. This is so exactly if
    there is a command, an address where it asks for one, and the values put in make no
    placeholder of a later kind. -/
theorem expansion_verbatim_iff (action : DeviceAction) (m : MemberView) :
    ((∃ l, action.run m = .ok l ∧
        l.program :: l.args = (tokenize action.command).map fun token => expanded token m) ∧
      ∀ token ∈ tokenize action.command, Verbatim (placeholders m) token.toList) ↔
    tokenize action.command ≠ [] ∧
      ¬ (count "{ip}".toList action.command.toList ≠ 0 ∧ m.virtualIp = none) ∧
      ∀ token ∈ tokenize action.command, Fresh (placeholders m) token.toList := by
  constructor
  · rintro ⟨⟨l, hrun, -⟩, hverbatim⟩
    obtain ⟨hsome, hip, -⟩ := DeviceAction.run_eq_ok_iff.mp hrun
    exact ⟨hsome, hip, fun token htoken =>
      (verbatim_iff (braced_placeholders m)).mp (hverbatim token htoken)⟩
  · rintro ⟨hsome, hip, hfresh⟩
    have hverbatim : ∀ token ∈ tokenize action.command, Verbatim (placeholders m) token.toList :=
      fun token htoken => (verbatim_iff (braced_placeholders m)).mpr (hfresh token htoken)
    have hmap : (tokenize action.command).map (fun token => expanded token m) =
        (tokenize action.command).map fun token => expand token m :=
      List.map_congr_left fun token htoken => by rw [expanded, expand, (hverbatim token htoken).1]
    obtain ⟨program, args, htokens⟩ := List.exists_cons_of_ne_nil hsome
    refine ⟨⟨⟨action.terminal, expand program m, args.map fun a => expand a m⟩, ?_, ?_⟩, hverbatim⟩
    · refine DeviceAction.run_eq_ok_iff.mpr ⟨hsome, hip, rfl, ?_⟩
      rw [htokens, List.map_cons]
    · rw [hmap, htokens, List.map_cons]

/-- A device that calls itself "{node_id}" is reached by its id, where the command asks for its
    name. -/
theorem expansion_rescans :
    let m : MemberView := { nodeId := "5e", hostname := some "{node_id}", label := none,
                            virtualIp := some "10.99.0.5", online := true, isSelf := false }
    DeviceAction.run { command := "ssh {hostname}", terminal := true } m =
      .ok { terminal := true, program := "ssh", args := ["5e"] } ∧
    (tokenize "ssh {hostname}").map (fun token => expanded token m) = ["ssh", "{node_id}"] := by
  decide +kernel

end Nullgate
