import HenPlugins.Ftp.SessionCalls

/-!
# The commands of an FTP session

Each command is a program that ends where it returns to `ftp_thread`.
-/

set_option autoImplicit false

namespace HenPlugins.Ftp.Commands

open HenPlugins.Lib.ByteText
open HenPlugins.Lib.CallProgram
open HenPlugins.Ftp.SessionCalls

abbrev FtpCommand := FtpEnv → Text → FtpProgram

def answers (reply : Reply) (env : FtpEnv) : FtpProgram :=
  ftpActivePrintf env reply (returns env)

def ftpCmdNoop : FtpCommand := fun env _ =>
  answers (.line "200 NOOP OK\r\n") env

def ftpCmdPwd : FtpCommand := fun env _ =>
  answers (.directory env.cwd) env

def ftpCmdSyst : FtpCommand := fun env _ =>
  answers (.line "215 UNIX Type: L8\r\n") env

def ftpCmdUser : FtpCommand := fun env _ =>
  answers (.line "230 User logged in\r\n") env

def ftpCmdUnavailable : FtpCommand := fun env _ =>
  answers (.line "502 Command not implemented\r\n") env

def ftpCmdUnknown : FtpCommand := fun env _ =>
  answers (.line "502 Command not recognized\r\n") env

/-- Nothing is mounted where `__PROSPERO__` is not defined. -/
def ftpCmdMtrw : FtpCommand := fun env _ =>
  answers (.line "226 command not supported\r\n") env

def ftpCmdQuit : FtpCommand := fun env _ =>
  ftpActivePrintf env (.line "221 Goodbye\r\n") fun _ => returns env (-1)

def ftpCmdKill : FtpCommand := fun _ _ => .exit

def ftpCmdType : FtpCommand := fun env arg =>
  match arg with
  | type :: _ =>
      if type = 'A'.toUInt8 ∨ type = 'I'.toUInt8 then
        answers (.typeSet type) { env with type := type }
      else answers (.line "501 Invalid argument to TYPE\r\n") env
  | [] => answers (.line "501 Invalid argument to TYPE\r\n") env

def ftpCmdRest : FtpCommand := fun env arg =>
  if arg = [] then answers (.line "501 Usage: REST <OFFSET>\r\n") env
  else
    answers (.line "350 REST OK\r\n")
      { env with dataOffset := BitVec.ofInt 64 (strtol 10 arg) }

def ftpCmdCdup : FtpCommand := fun env _ =>
  let pos := lastSlash env.cwd 0 (-1)
  answers (.line "250 OK\r\n")
    { env with cwd := if pos ≤ 0 then [slash] else env.cwd.take pos.toNat }

/-- A call that fails is reported, and one that succeeds is answered. -/
def callThen (env : FtpEnv) (call : Call)
    (next : Buffers → FtpProgram) : FtpProgram :=
  .call (.plain call) fun answer =>
    if answer.value ≠ 0 then ftpPerror env (returns env) else next answer.data

/-- A usage message, or one call on the path that is asked for. -/
def pathCommand (usage done : String) (call : Text → Call) : FtpCommand :=
  fun env arg =>
    if arg = [] then answers (.line usage) env
    else
      callThen env (call (ftpAbspath env arg)) fun _ =>
        answers (.line done) env

def ftpCmdDele : FtpCommand :=
  pathCommand "501 Usage: DELE <FILENAME>\r\n" "226 File deleted\r\n" .remove

def ftpCmdMkd : FtpCommand :=
  pathCommand "501 Usage: MKD <DIRNAME>\r\n" "226 Directory created\r\n" .mkdir

def ftpCmdRmd : FtpCommand :=
  pathCommand "501 Usage: RMD <DIRNAME>\r\n" "226 Directory deleted\r\n" .rmdir

def ftpCmdChmod : FtpCommand := fun env arg =>
  if ' '.toUInt8 ∉ arg then
    answers (.line "501 Usage: CHMOD <MODE> <PATH>\r\n") env
  else
    callThen env
      (.chmod (ftpAbspath env (after ' '.toUInt8 arg)) (strtol 8 arg))
      fun _ => answers (.line "200 OK\r\n") env

def ftpCmdCwd : FtpCommand := fun env arg =>
  if arg = [] then answers (.line "501 Usage: CWD <PATH>\r\n") env
  else
    let pathbuf := ftpAbspath env arg
    callThen env (.stat pathbuf) fun st =>
      if st.isDir then
        answers (.line "250 OK\r\n")
          { env with cwd := snprintf pathMax pathbuf }
      else answers (.line "550 No such directory\r\n") env

def ftpCmdSize : FtpCommand := fun env arg =>
  if arg = [] then answers (.line "501 Usage: SIZE <FILENAME>\r\n") env
  else
    callThen env (.stat (ftpAbspath env arg)) fun st =>
      answers (.size st.size) env

/-- The path is kept whether it is there or not. -/
def ftpCmdRnfr : FtpCommand := fun env arg =>
  if arg = [] then answers (.line "501 Usage: RNFR <PATH>\r\n") env
  else
    let announced := { env with renamePath := ftpAbspath env arg }
    callThen announced (.stat announced.renamePath) fun _ =>
      answers (.line "350 Awaiting new name\r\n") announced

def ftpCmdRnto : FtpCommand := fun env arg =>
  if arg = [] then answers (.line "501 Usage: RNTO <PATH>\r\n") env
  else
    callThen env (.stat env.renamePath) fun _ =>
      callThen env (.rename env.renamePath (ftpAbspath env arg)) fun _ =>
        answers (.line "226 Path renamed\r\n") env

/-- The passive socket could not be set up: it is closed, its number is kept. -/
def refusePassive (env : FtpEnv) : FtpProgram :=
  ftpPerror env fun ret =>
    .call (.close .passive env.passiveFd) fun _ => returns env ret

/-- `ftp_cmd_PASV` from its call of `socket` on. -/
def pasvSocket (env : FtpEnv) (addr : BitVec 32) : FtpProgram :=
  .call (.acquire .passive .socket none) fun answer =>
    let env := { env with passiveFd := answer.value }
    if answer.value < 0 then ftpPerror env (returns env)
    else
      .call (.use .bind env.passiveFd) fun bound =>
        if bound.value ≠ 0 then refusePassive env
        else
          .call (.use .listen env.passiveFd) fun listening =>
            if listening.value ≠ 0 then refusePassive env
            else
              .call (.use .getsockname env.passiveFd) fun named =>
                if named.value ≠ 0 then refusePassive env
                else answers (.passiveMode addr named.data.addr.sinPort) env

def ftpCmdPasv : FtpCommand := fun env _ =>
  .call (.use .getsockname env.activeFd) fun answer =>
    if answer.value ≠ 0 then ftpPerror env (returns env)
    else
      closeIfPositive .passive env.passiveFd
        (pasvSocket env answer.data.addr.sAddr)

/-- A socket that is already there is not closed. -/
def ftpCmdPort : FtpCommand := fun env arg =>
  match scanBytes 6 arg with
  | some [addr0, addr1, addr2, addr3, addr4, addr5] =>
      .call (.acquire .data .socket none) fun answer =>
        let env := { env with dataFd := answer.value }
        if answer.value < 0 then ftpPerror env (returns env)
        else
          answers (.line "200 PORT command successful.\r\n")
            { env with dataAddr :=
                { sAddr := addr3 ++ addr2 ++ addr1 ++ addr0
                  sinPort := addr5 ++ addr4 } }
  | _ => answers (.line "501 Usage: PORT <addr>\r\n") env

/-- If there is no data connection, the directory stays open. -/
def ftpCmdList : FtpCommand := fun env arg =>
  let path :=
    if arg ≠ [] ∧ arg.head? ≠ some '-'.toUInt8 then arg else env.cwd
  .call (.acquire .dir (.opendir path) none) fun dir =>
    if dir.value < 0 then ftpPerror env (returns env)
    else
      ftpDataOpen env fun env failed =>
        if failed ≠ 0 then ftpPerror env (returns env)
        else
          ftpActivePrintf env (.line "150 Opening data transfer\r\n") fun _ =>
            .again (.listing env path dir.value)

def listingEnd (env : FtpEnv) (dir : Int) : FtpProgram :=
  ftpDataClose env fun failed =>
    if failed ≠ 0 then
      ftpPerror env fun ret =>
        .call (.close .dir dir) fun _ => returns env ret
    else
      .call (.close .dir dir) fun answer =>
        if answer.value ≠ 0 then ftpPerror env (returns env)
        else answers (.line "226 Transfer complete\r\n") env

def entryPath (env : FtpEnv) (path name : Text) : Text :=
  snprintf (pathMax + 256 + 2)
    (if path.head? = some slash then path ++ slash :: name
    else slash :: env.cwd ++ slash :: path ++ slash :: name)

/-- The loop of `ftp_cmd_LIST`; `readdir` answers a negative value at the
end. -/
def listing (env : FtpEnv) (path : Text) (dir : Int) : FtpProgram :=
  .call (.use .readdir dir) fun ent =>
    if ent.value < 0 then listingEnd env dir
    else
      .call (.plain (.stat (entryPath env path ent.data.name))) fun found =>
        if found.value ≠ 0 then .again (.listing env path dir)
        else
          .call (.use (.sendEntry ent.data.name found.data.size) env.dataFd)
            fun _ => .again (.listing env path dir)

/-- A transfer that fails: the data connection and the file are closed. -/
def breakOff (env : FtpEnv) (fd : Int) : FtpProgram :=
  ftpPerror env fun err =>
    ftpDataClose env fun _ =>
      .call (.close .file fd) fun _ => returns env err

/-- A transfer that is complete. -/
def closeBoth (env : FtpEnv) (fd : Int) (reply : Reply) : FtpProgram :=
  .call (.close .file fd) fun _ =>
    ftpDataClose env fun failed =>
      if failed ≠ 0 then ftpPerror env (returns env) else answers reply env

/-- `RETR` and `STOR` with their file open. -/
def openTransfer (env : FtpEnv) (fd : Int) (loop : FtpEnv → Point) :
    FtpProgram :=
  ftpActivePrintf env (.line "150 Opening data transfer\r\n") fun failed =>
    if failed ≠ 0 then
      .call (.close .file fd) fun _ => returns env (-1)
    else
      ftpDataOpen env fun env failed =>
        if failed ≠ 0 then
          ftpPerror env fun err =>
            .call (.close .file fd) fun _ => returns env err
        else .again (loop env)

def ftpCmdRetr : FtpCommand := fun env arg =>
  if arg = [] then answers (.line "501 Usage: RETR <PATH>\r\n") env
  else
    let pathbuf := ftpAbspath env arg
    callThen env (.stat pathbuf) fun st =>
      if st.isDir then answers (.line "550 Not a file\r\n") env
      else
        .call (.acquire .file (.openRead pathbuf) none) fun fd =>
          if fd.value < 0 then answers .perror env
          else openTransfer env fd.value fun env => .retrieving env fd.value

def retrieving (env : FtpEnv) (fd : Int) : FtpProgram :=
  .call (.use .readFile fd) fun len =>
    if len.value = 0 then
      closeBoth env fd (.line "226 Transfer completed\r\n")
    else if len.value < 0 then breakOff env fd
    else
      .call (.use (.send len.value) env.dataFd) fun written =>
        if len.value ≠ written.value then breakOff env fd
        else .again (.retrieving env fd)

def ftpCmdStor : FtpCommand := fun env arg =>
  let off := env.dataOffset
  let env := { env with dataOffset := 0 }
  if arg = [] then answers (.line "501 Usage: STOR <FILENAME>\r\n") env
  else
    .call (.acquire .file (.openWrite (ftpAbspath env arg)) none) fun fd =>
      if fd.value < 0 then ftpPerror env (returns env)
      else
        .call (.use (.lseek off) fd.value) fun position =>
          if position.value < 0 then
            ftpPerror env fun err =>
              .call (.close .file fd.value) fun _ => returns env err
          else
            openTransfer env fd.value fun env => .storing env fd.value off

/-- An error of `recv` is a length of -1 to the caller. -/
def storing (env : FtpEnv) (fd : Int) (off : BitVec 64) : FtpProgram :=
  .call (.use .recv env.dataFd) fun len =>
    if len.value = 0 then
      .call (.use (.ftruncate off) fd) fun cut =>
        if cut.value ≠ 0 then breakOff env fd
        else closeBoth env fd (.line "226 Data transfer complete\r\n")
    else
      .call (.use (.writeFile len.value) fd) fun written =>
        if written.value ≠ len.value then breakOff env fd
        else .again (.storing env fd (off + BitVec.ofInt 64 len.value))

def ftpCmdAppe : FtpCommand := fun env arg =>
  if arg = [] then answers (.line "501 Usage: APPE <FILENAME>\r\n") env
  else if env.dataOffset = 0 then
    callThen env (.stat (ftpAbspath env arg)) fun st =>
      ftpCmdStor { env with dataOffset := st.size } arg
  else ftpCmdStor env arg

end HenPlugins.Ftp.Commands
