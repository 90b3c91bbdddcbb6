import HenPlugins.Lib.SharedDescriptors
import HenPlugins.Ftp.Commands

/-!
# FTP sessions

`ftp_thread` reads a line, executes it and begins again.  The server accepts
connections and starts a thread for each of them; its threads share the
descriptors of the process.
-/

set_option autoImplicit false

namespace HenPlugins.Ftp.FtpSessions

open HenPlugins.Lib.ByteText
open HenPlugins.Lib.CallProgram
open HenPlugins.Lib.SharedDescriptors
open HenPlugins.Lib.EventRun
open HenPlugins.Ftp.SessionCalls
open HenPlugins.Ftp.Commands

def commands : List (Text × FtpCommand) :=
  [(ascii "APPE", ftpCmdAppe),
   (ascii "CDUP", ftpCmdCdup),
   (ascii "CWD", ftpCmdCwd),
   (ascii "DELE", ftpCmdDele),
   (ascii "LIST", ftpCmdList),
   (ascii "MKD", ftpCmdMkd),
   (ascii "NOOP", ftpCmdNoop),
   (ascii "PASV", ftpCmdPasv),
   (ascii "PORT", ftpCmdPort),
   (ascii "PWD", ftpCmdPwd),
   (ascii "QUIT", ftpCmdQuit),
   (ascii "REST", ftpCmdRest),
   (ascii "RETR", ftpCmdRetr),
   (ascii "RMD", ftpCmdRmd),
   (ascii "RNFR", ftpCmdRnfr),
   (ascii "RNTO", ftpCmdRnto),
   (ascii "SIZE", ftpCmdSize),
   (ascii "STOR", ftpCmdStor),
   (ascii "SYST", ftpCmdSyst),
   (ascii "TYPE", ftpCmdType),
   (ascii "USER", ftpCmdUser),
   (ascii "KILL", ftpCmdKill),
   (ascii "MTRW", ftpCmdMtrw),
   (ascii "CHMOD", ftpCmdChmod),
   (ascii "XCUP", ftpCmdCwd),
   (ascii "XMKD", ftpCmdMkd),
   (ascii "XPWD", ftpCmdPwd),
   (ascii "XRMD", ftpCmdRmd),
   (ascii "XRCP", ftpCmdUnavailable),
   (ascii "XRSQ", ftpCmdUnavailable),
   (ascii "XSEM", ftpCmdUnavailable),
   (ascii "XSEN", ftpCmdUnavailable)]

def ftpExecute (env : FtpEnv) (line : Text) : FtpProgram :=
  let name := before ' '.toUInt8 line
  let arg := after ' '.toUInt8 line
  match commands.find? fun command => command.1 = name with
  | some command => command.2 env arg
  | none => ftpCmdUnknown env arg

/-- `ftp_readline` allocates its buffer. -/
def serve (env : FtpEnv) : FtpProgram :=
  .call (.plain .calloc) fun buffer =>
    if buffer.value < 0 then finish env else .again (.readLine env)

/-- One byte of `ftp_readline`, and the line with its last one. -/
def readLine (env : FtpEnv) : FtpProgram :=
  .call (.use .readByte env.activeFd) fun len =>
    if len.value = -1 ∧ len.data.interrupted then .again (.readLine env)
    else if len.value ≤ 0 then finish env
    else
      match len.data.line with
      | none => .again (.readLine env)
      | some line =>
          ftpExecute env
            (if startsWith line (ascii "SITE ") then line.drop 5 else line)

def body : Point → FtpProgram
  | .serve env => serve env
  | .readLine env => readLine env
  | .listing env path dir => listing env path dir
  | .retrieving env fd => retrieving env fd
  | .storing env fd off => storing env fd off

def startEnv (connfd : Nat) : FtpEnv where
  dataFd := -1
  activeFd := connfd
  passiveFd := -1
  cwd := ascii "/"
  type := 'A'.toUInt8
  dataOffset := 0
  renamePath := []
  dataAddr := ⟨0, 0⟩

/-- `ftp_greet`, then the loop. -/
def ftpThread (connfd : Nat) : FtpProgram :=
  let env := startEnv connfd
  .call (.use .greeting env.activeFd) fun answer =>
    if answer.value = 0 then .again (.serve env) else finish env

abbrev Server := State Call Role Buffers Point
abbrev ServerEvent := Event Buffers

def serverStep (server : Server) (event : ServerEvent) : Option Server :=
  step body ftpThread .active server event

/-- Before the first connection; some descriptors are not for sessions. -/
def startServer (inUse : Nat → Bool) : Server where
  table := fun number => if inUse number then .elsewhere else .free
  sessions := []

end HenPlugins.Ftp.FtpSessions
