import AltF.Foundation.Words
import AltF.Foundation.Runs
import AltF.Foundation.Loops
import AltF.Foundation.Decimal
import AltF.Foundation.FixedWidth
import AltF.Firmware.Header
import AltF.Firmware.ReadWrite
import AltF.Firmware.Merge
import AltF.Firmware.Split
import AltF.Firmware.Recognition
import AltF.Firmware.RoundTrip
import AltF.Firmware.Corruption
import AltF.SysFiles.Text
import AltF.SysFiles.Exchange
import AltF.Mcu.Commands
import AltF.Mcu.Serial
import AltF.Mcu.Reception
import AltF.Mcu.Line
import AltF.Mcu.Fan
import AltF.Mcu.PowerLed
import AltF.Sysctrl.Fan
import AltF.Sysctrl.FanLog
import AltF.Sysctrl.Alarms
import AltF.Sysctrl.UserScripts
import AltF.Sysctrl.Pwm
import AltF.Sysctrl.Buttons
import AltF.Sysctrl.Debounce
import AltF.Sysctrl.Panel
import AltF.Sysctrl.Leds
import AltF.Sysctrl.MdStat
import AltF.Sysctrl.Disks
import AltF.Sysctrl.PowerLed
import AltF.Sysctrl.Spindown
import AltF.Sysctrl.Standby
import AltF.Sysctrl.DiskTemps
import AltF.Sysctrl.Misc
import AltF.Sysctrl.Config
import AltF.Sysctrl.Reload
import AltF.Sysctrl.ConfigBuffer
import AltF.Foundation.Processes
import AltF.Foundation.Interference
import AltF.Foundation.History
import AltF.Foundation.Cubic
import AltF.Locks.PidFile
import AltF.Locks.Backup
import AltF.Backup.Rotation
import AltF.Backup.PathLoops
import AltF.Backup.Conf
import AltF.Locks.TempLock
import AltF.Locks.OtherDaemon
import AltF.Locks.FsckLock
import AltF.Foundation.Directory
import AltF.Foundation.EraseBlocks
import AltF.Foundation.Dates
import AltF.Foundation.Slots
import AltF.Foundation.Areas
import AltF.Foundation.CStrings
import AltF.Foundation.Traversal
import AltF.Foundation.Substitution
import AltF.Foundation.Checklist
import AltF.Settings.Flash
import AltF.Settings.Retries
import AltF.Settings.Saving
import AltF.SysFiles.Lines
import AltF.SysFiles.Paths
import AltF.SysFiles.Patterns
import AltF.SysFiles.Edits
import AltF.Settings.UserFiles
import AltF.Shell.Words
import AltF.Shell.Eval
import AltF.Firmware.Info
import AltF.Firmware.Padding
import AltF.Cgi.FirmwareProc
import AltF.Cgi.FlashForm
import AltF.Cgi.UploadFiles
import AltF.Cgi.UploadEval
import AltF.Cgi.UploadIntact
import AltF.Cgi.PageText
import AltF.Cgi.QuotaProc
import AltF.Cgi.ArgsSent
import AltF.Cgi.QueryString
import AltF.Cgi.Encoded
import AltF.Cgi.SysctrlProc
import AltF.Cgi.EtcFiles
import AltF.Cgi.DnsmasqProc
import AltF.Cgi.RmountProc
import AltF.Cgi.RmountPage
import AltF.Cgi.HostProc
import AltF.Cgi.RejectedForms
import AltF.Cgi.RmountKept
import AltF.Cgi.HostsFile
import AltF.Hosts.Leases
import AltF.Cgi.Session
import AltF.Cgi.Cookies
import AltF.Hotplug.Events
import AltF.Hotplug.Mirror
import AltF.Hotplug.Mount
import AltF.Hotplug.Bookkeeping
import AltF.Hotplug.Links
import AltF.Packages.Status
import AltF.Packages.Repair
import AltF.Packages.Orphans
import AltF.Services.Scripts
import AltF.Services.Requirements
import AltF.Services.Exclusion
import AltF.Services.Inetd
import AltF.Services.Rcall
import AltF.Fixup.Fixes
import AltF.Fixup.Applied
import AltF.Shell.Reading
import AltF.Shell.Scripts
import AltF.Cron.Crontab
import AltF.Cron.Scheduling
import AltF.Cgi.Forms
import AltF.Cgi.CronPage
import AltF.Cgi.InetdPage
import AltF.Cgi.FirstBoot
import AltF.Cgi.RsyncConf
import AltF.Cgi.RsyncWritten
import AltF.Cgi.RsyncShares
import AltF.Cgi.BackupIds
import AltF.Cgi.DirProc
import AltF.Cgi.DirProgress
import AltF.Cgi.Secrets
import AltF.Cgi.DiskPart
import AltF.Cgi.KeptPartitions
import AltF.Cgi.DiskWiz
import AltF.Cgi.PartitionPage
import AltF.Cgi.WizardLayout
import AltF.Cgi.DiskMaint
import AltF.Cgi.DiskReports
import AltF.Cgi.Firmware2Proc
import AltF.Cgi.NandErase
import AltF.Cgi.FactorySettings
import AltF.Mcu.Handlers
import AltF.Mcu.Relayed
import AltF.Mcu.Frames
import AltF.Mcu.Buffers
import AltF.Mcu.Zone
import AltF.Mcu.Device
import AltF.Mcu.AlarmKept
import AltF.Mcu.HardwareClock
import AltF.Mcu.Answers
import AltF.Mcu.Payload
import AltF.Mcu.AlarmShown
import AltF.Mcu.AlarmAdvance
import AltF.Mcu.Clients
