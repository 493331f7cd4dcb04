import EspLinux.Lib.Double

/-!
# The telnet decoder

`process_telnet_data` takes the telnet commands out of the bytes that come from the network.  A
byte 255 starts a command, or stands for itself if another one follows it.  So what has been
escaped by doubling every 255 is decoded to the bytes that it was made from
(`process_telnet_data_double`), and no command is found in it.
-/

namespace EspLinux.Ser2net

open EspLinux.Lib

/-- `TN_IAC` -/
def TN_IAC : UInt8 := 255

/-- `MAX_TELNET_CMD_SIZE` -/
def MAX_TELNET_CMD_SIZE : ℕ := 31

/-- The state of the decoder.  `telnet_cmd` is the command so far, up to `telnet_cmd_pos`, and
`handled` the commands that have been passed to `handle_telnet_cmd`. -/
structure TelnetData where
  telnet_cmd : List UInt8
  suboption_iac : Bool
  handled : List (List UInt8)

namespace TelnetData

/-- After `telnet_init`. -/
def init : TelnetData := { telnet_cmd := [], suboption_iac := false, handled := [] }

/-- `handle_telnet_cmd`, and look for the next command. -/
def handle (td : TelnetData) : TelnetData :=
  { td with telnet_cmd := [], handled := td.handled ++ [td.telnet_cmd] }

/-- Store a byte of the command. -/
def store (b : UInt8) (td : TelnetData) : TelnetData :=
  { td with telnet_cmd := td.telnet_cmd ++ [b] }

/-- A byte of the input, and whether it is left in the data. -/
def byte (b : UInt8) (td : TelnetData) : TelnetData × Bool :=
  match td.telnet_cmd with
  | [] =>
    if b = TN_IAC then ({ td with telnet_cmd := [TN_IAC], suboption_iac := false }, false)
    else (td, true)
  | [_] =>
    if b = TN_IAC then ({ td with telnet_cmd := [] }, true)
    else if b.toNat < 250 then ((td.store b).handle, false)
    else (td.store b, false)
  | [_, c] => if c ≠ 250 then ((td.store b).handle, false) else (td.store b, false)
  | _ :: _ :: _ :: _ =>
    if td.suboption_iac then
      let td :=
        if b = 240 then { td with telnet_cmd := td.telnet_cmd.dropLast }.handle
        else if b = TN_IAC then td
        else { td with telnet_cmd := td.telnet_cmd.dropLast }
      ({ td with suboption_iac := false }, false)
    else
      -- the last character received is always stored in the last position
      let td :=
        if MAX_TELNET_CMD_SIZE < td.telnet_cmd.length then
          { td with telnet_cmd := td.telnet_cmd.take MAX_TELNET_CMD_SIZE }
        else td
      ({ td.store b with suboption_iac := decide (b = TN_IAC) }, false)

end TelnetData

/-- `process_telnet_data` -/
def process_telnet_data : List UInt8 → TelnetData → List UInt8 × TelnetData
  | [], td => ([], td)
  | b :: l, td =>
    let r := td.byte b
    let rest := process_telnet_data l r.1
    (if r.2 then b :: rest.1 else rest.1, rest.2)

variable {td : TelnetData} {b : UInt8} {l : List UInt8}

lemma byte_data (h : td.telnet_cmd = []) (hb : b ≠ TN_IAC) : td.byte b = (td, true) := by
  rw [TelnetData.byte, h]
  exact if_neg hb

/-- Two 255 leave one, and the decoder looks for a command again. -/
lemma byte_iac (h : td.telnet_cmd = []) :
    ∃ td', td.byte TN_IAC = (td', false) ∧ td'.byte TN_IAC = ({ td' with telnet_cmd := [] }, true) ∧
      td'.handled = td.handled := by
  refine ⟨{ td with telnet_cmd := [TN_IAC], suboption_iac := false }, ?_, rfl, rfl⟩
  rw [TelnetData.byte, h]
  rfl

/-- Decoding undoes the doubling. -/
theorem process_telnet_data_double (h : td.telnet_cmd = []) :
    ∃ td', process_telnet_data (double TN_IAC l) td = (l, td') ∧ td'.telnet_cmd = [] ∧
      td'.handled = td.handled := by
  induction l generalizing td with
  | nil => exact ⟨td, rfl, h, rfl⟩
  | cons b l ih =>
    by_cases hb : b = TN_IAC
    · obtain ⟨td₁, h₁, h₂, hh⟩ := byte_iac h
      obtain ⟨td', hdec, hcmd, hhandled⟩ := @ih { td₁ with telnet_cmd := [] } rfl
      refine ⟨td', ?_, hcmd, hhandled.trans hh⟩
      rw [hb, double_cons_self, process_telnet_data, h₁, process_telnet_data, h₂]
      simp only [hdec, if_true, Bool.false_eq_true, if_false]
    · obtain ⟨td', hdec, hcmd, hhandled⟩ := ih h
      refine ⟨td', ?_, hcmd, hhandled⟩
      rw [double_cons_of_ne hb, process_telnet_data, byte_data h hb]
      simp only [hdec, if_true]

end EspLinux.Ser2net
