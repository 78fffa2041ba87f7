/-
  Cgi/RejectedForms.lean --- the files in /etc after a form that one of the network pages
  rejects.

  hosts_proc.cgi writes nothing before all of the form is checked, and rmount_proc.cgi puts
  its copy back.  The other two check what they have begun to write.
-/
import AltF.Cgi.DnsmasqProc
import AltF.Cgi.HostProc
import AltF.Cgi.RmountProc

set_option autoImplicit false

namespace AltF.Cgi.Etc

open AltF.Shell AltF.SysFiles

/-- The scripts. -/
inductive NetPage where
  | dnsmasq
  | host
  | hosts
  | rmount

def HostTools.page (tools : HostTools) (f : Form) : NetPage → Page PUnit
  | .dnsmasq => tools.dnsmasqProc f
  | .host => tools.hostProc f
  | .hosts => tools.hostsProc f
  | .rmount => tools.rmountProc f

/-- What a script has written before a fault is found changes nothing, or is put back. -/
def Harmless (tools : HostTools) (f : Form) (s : Files) : NetPage → Prop
  | .dnsmasq => RowRejected tools.toTools f → DnsmasqSettled tools.toTools f s
  | .host => HostKept tools f s
  | .hosts => True
  | .rmount => MountRejected tools.toTools f → CopySettled f s

/-- A box in a network, where no text runs commands and no name is a pattern. -/
def plainTools : HostTools where
  toPageMachine := plainPage
  ipcalc ws := decide (ws ≠ []) && ws.all fun w => w.all fun c => c.isDigit || c == '.'
  arping _ := true
  testNotMnt ws := decide (ws ≠ ["/mnt".toList])
  testNotMnt_word w := by simp
  mountError _ := none
  domainName := "localnet".toList
  domainName_line := by decide
  gateway := "192.168.1.1".toList
  gateway_chars := by decide
  ntpServers := []
  ntpServers_line := by decide
  board := "DNS-323-A1".toList
  network _ _ := "192.168.1.0".toList
  broadcast _ _ := "192.168.1.255".toList
  commands _ env s := some (env, s)
  sedScript _ s := s

/-- A form of dnsmasq_proc.cgi with a name that has no MAC. -/
def noMac : Form where
  var n :=
    if n = "Submit".toList then "Submit".toList
    else if n = "low_rg".toList then "192.168.1.100".toList
    else if n = "high_rg".toList then "192.168.1.150".toList
    else if n = "glease".toList then "24h".toList
    else if n = "cnt_din".toList then "0".toList
    else if n = "nm_0".toList then "pc".toList
    else []
  line n := by
    split_ifs <;> decide

/-- A box with one entry for dnsmasq. -/
def oneEntry : Files
  | .dnsmasqHosts => some ⟨["00:11:22:33:44:55,nas".toList], []⟩
  | _ => none

end AltF.Cgi.Etc
