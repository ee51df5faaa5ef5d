import PortManager.Base.Replacing
import PortManager.Node.PortRouting

/-!
# Commands with an injected port

Embeds C `pm_build_injected_command` of `native/agent/portmanager_agent_state.c` and `buildInjectedCommand` of
`platform/process/port-injection.ts`: the command a process is started with, when its port goes to the environment,
behind the command or to the placeholders in it. The C texts of this module are octets.
-/

namespace PortManager
open List Replacing Utf8 Node
open JsonText (codes)

inductive PortInjectionMode where
  | env
  | argument
  | template
deriving DecidableEq

def PortInjectionMode.text : PortInjectionMode → List Nat
  | .env => codes "env"
  | .argument => codes "argument"
  | .template => codes "template"

def sizeT (n : Int) : Nat := (n % 2 ^ 64).toNat

/-- C `pm_build_injected_command`, when there is memory. In a template the loop over `strstr` runs twice: it counts the
placeholders, and then writes to an object of the size that follows from their number; `none` is a write behind its end. -/
def Native.buildInjectedCommand (command mode : List Nat) (port : Nat) : Option (List Nat) :=
  let portText := (decimal port).take 15
  let needle := codes "$\x7bport\x7d"
  if mode = codes "argument" then
    some ((command ++ codes " --port " ++ portText).take (sizeT (command.length + portText.length + 9) - 1))
  else if mode ≠ codes "template" then some command
  else
    let replacements := occurrences needle 0 command
    let result := replaceAll needle portText 0 command
    if result.length < sizeT (command.length + replacements * (portText.length - needle.length) + 1) then some result
    else none

/-- `String.prototype.trimEnd` -/
def Node.trimEnd (s : List Nat) : List Nat := s.rdropWhile isSpaceUnit

def Node.buildInjectedCommand (command : List Nat) (actualPort : Nat) : PortInjectionMode → List Nat
  | .template => replaceAll (codes "$\x7bport\x7d") (decimal actualPort) 0 command
  | .argument => trimEnd command ++ codes " --port " ++ decimal actualPort
  | .env => command

section Native
variable {command : List Nat} {port : Nat} (hport : isValidPort port = true) (hobject : command.length < 2 ^ 63)
include hport

lemma length_portText : (decimal port).length ≤ 5 := by
  simp only [isValidPort, decide_eq_true_eq] at hport
  rw [decimal, length_map]
  exact (Nat.length_toDigits_le_iff (by decide) (by decide)).mpr (by omega)

lemma take_portText : (decimal port).take 15 = decimal port :=
  take_of_length_le (le_trans (length_portText hport) (by decide))

include hobject

lemma native_argument : Native.buildInjectedCommand command (codes "argument") port =
    some (command ++ codes " --port " ++ decimal port) := by
  have hlength := length_portText hport
  rw [Native.buildInjectedCommand, if_pos rfl, take_portText hport, take_of_length_le]
  simp only [length_append, sizeT, show (codes " --port ").length = 8 from rfl]
  omega

lemma native_template : Native.buildInjectedCommand command (codes "template") port =
    some (replaceAll (codes "$\x7bport\x7d") (decimal port) 0 command) := by
  rw [Native.buildInjectedCommand, if_neg (by decide), if_neg (by decide), take_portText hport]
  dsimp only
  have hneedle : (codes "$\x7bport\x7d").length = 7 := rfl
  generalize codes "$\x7bport\x7d" = needle at hneedle
  have hlength := length_replaceAll needle (decimal port) (ne_nil_of_length_pos (by omega)) (Nat.zero_le command.length)
  have hshrinks := Nat.mul_le_mul_left (occurrences needle 0 command)
    (Nat.le_trans (length_portText hport) (show 5 ≤ needle.length by omega))
  have hsize : (command.length + occurrences needle 0 command * ((decimal port).length - needle.length) + 1 : Int) =
      ((replaceAll needle (decimal port) 0 command).length + 1 : Nat) := by
    rw [Int.mul_sub]
    push_cast
    omega
  rw [hsize, sizeT, if_pos (by omega)]

end Native

/-- White space at the end of a text has octets of its own. -/
lemma encode_trimEnd {command : List Nat} (hcommand : Whole command) :
    Whole (trimEnd command) ∧ (encode command = encode (trimEnd command) ↔ trimEnd command = command) := by
  have happend : trimEnd command ++ command.rtakeWhile isSpaceUnit = command := rdropWhile_append_rtakeWhile ..
  generalize hspaces : command.rtakeWhile isSpaceUnit = spaces at happend
  have hhead : ∀ y ∈ spaces.head?, y < 0xDC00 ∨ 0xE000 ≤ y := by
    intro y hy
    have hspace := mem_rtakeWhile_imp (hspaces ▸ mem_of_mem_head? hy)
    simp only [isSpaceUnit, Bool.or_eq_true, Bool.and_eq_true, decide_eq_true_eq, beq_iff_eq] at hspace
    omega
  have hwhole : Whole (trimEnd command) := Whole.of_append (happend.symm ▸ hcommand) hhead
  refine ⟨hwhole, fun h => ?_, fun h => by rw [h]⟩
  have hdecode := congrArg decode h
  rw [decode_encode hcommand, decode_encode hwhole] at hdecode
  exact hdecode.symm

/-- The two builders give the same command for a text exactly when the port does not go behind a command that ends with white
space: only TypeScript takes that away first. -/
theorem injected_command_agrees_iff {command : List Nat} {port : Nat} (mode : PortInjectionMode) (hcommand : Whole command)
    (hport : isValidPort port = true) (hobject : (encode command).length < 2 ^ 63) :
    Native.buildInjectedCommand (encode command) mode.text port = some (encode (Node.buildInjectedCommand command port mode)) ↔
      (mode = .argument → trimEnd command = command) := by
  have hascii : ∀ x ∈ decimal port, x < 0x80 := by
    intro x hx
    obtain ⟨c, hc, rfl⟩ := mem_map.mp hx
    exact lt_of_le_of_lt (CText.toNat_of_mem_toDigits hc).2 (by decide)
  cases mode with
  | env =>
    refine iff_of_true ?_ (fun h => by cases h)
    rw [PortInjectionMode.text, Native.buildInjectedCommand, if_neg (by decide), if_pos (by decide)]
    rfl
  | argument =>
    obtain ⟨hwhole, htrim⟩ := encode_trimEnd hcommand
    have hsuffix : ∀ x ∈ codes " --port " ++ decimal port, x < 0x80 := forall_mem_append.mpr ⟨by decide, hascii⟩
    rw [PortInjectionMode.text, native_argument hport hobject, Node.buildInjectedCommand, append_assoc, append_assoc,
      encode_whole hwhole, encode_ascii hsuffix, Option.some.injEq, append_left_inj, htrim]
    exact ⟨fun h _ => h, fun h => h rfl⟩
  | template =>
    refine iff_of_true ?_ (fun h => by cases h)
    rw [PortInjectionMode.text, native_template hport hobject]
    exact congrArg some (replaceAll_encode (by decide) hascii hcommand fun x hx => by cases hx)

/-- A command with a placeholder. -/
theorem injected_command_agrees_template :
    Whole (codes "vite -p $\x7bport\x7d") ∧ isValidPort 53001 = true ∧ (encode (codes "vite -p $\x7bport\x7d")).length < 2 ^ 63 ∧
    Native.buildInjectedCommand (encode (codes "vite -p $\x7bport\x7d")) PortInjectionMode.template.text 53001 =
      some (encode (Node.buildInjectedCommand (codes "vite -p $\x7bport\x7d") 53001 .template)) :=
  ⟨whole_ascii (by decide), by decide, by decide,
    (injected_command_agrees_iff .template (whole_ascii (by decide)) (by decide) (by decide)).mpr fun h => by cases h⟩

/-- A blank at the end stays in the native command. -/
theorem injected_argument_keeps_blank :
    Native.buildInjectedCommand (encode (codes "vite ")) PortInjectionMode.argument.text 53001 = some (codes "vite  --port 53001") ∧
    encode (Node.buildInjectedCommand (codes "vite ") 53001 .argument) = codes "vite --port 53001" := by
  decide +kernel

end PortManager
