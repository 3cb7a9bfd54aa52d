import NvmeDem.Dem.Reconfig
import NvmeDem.Dem.Router

/-!
# The commands of the client

The client turns a command line into requests of the REST interface. A URL is printed into a buffer, and one that does not fit is cut. A
body is printed into a buffer as well and is sent by the length that it would have had, whether or not it fits.

What a command does is here the requests it makes (`Plan`). What it shows of an answer is not modelled.
-/

namespace NvmeDem.Cli

open Rest Push

/-! ## Buffers -/

def urlSize : Nat := 128
def dataSize : Nat := 256
def aclDataSize : Nat := 384

/-- What `snprintf` leaves in a buffer: a terminating zero, and before it as much of the text as there is room for. -/
def snprintf (size : Nat) (text : String) : String := cCut (size - 1) text

/-- What is sent of a text that was printed into a buffer, by its whole length. A text that is one too long is sent with the terminating
zero in the place of its end. -/
def sendBuffer (size : Nat) (text : String) : Except Fault String :=
  if text.length < size then .ok text
  else if text.length = size then .ok (snprintf size text ++ "\x00")
  else .error .outOfBounds

/-! ## Requests -/

structure HttpCall where
  method : Method
  url : String
  body : String := ""
  deriving DecidableEq, Repr

/-- The requests that a command makes, one after the other, and whether it returns zero however they go. -/
structure Plan where
  calls : List HttpCall
  ignores : Bool := false
  deriving DecidableEq, Repr

/-- A command that is called off, or that has nothing to do. -/
def Plan.nothing : Plan := { calls := [], ignores := true }

def execGet (url : String) : Except Fault Plan := .ok { calls := [{ method := .get, url := url }] }

def execPost (url : String) : Except Fault Plan := .ok { calls := [{ method := .post, url := url }] }

def execDelete (url : String) : Except Fault Plan := .ok { calls := [{ method := .delete, url := url }] }

def execPut (url : String) (size : Nat) (data : String) : Except Fault Plan := do
  return { calls := [{ method := .put, url := url, body := ← sendBuffer size data }] }

def execPatch (url : String) (size : Nat) (data : String) : Except Fault Plan := do
  return { calls := [{ method := .patch, url := url, body := ← sendBuffer size data }] }

/-- A URL of parts behind the base that the client was started with. -/
def urlOf (base : String) (parts : List String) : String := snprintf urlSize ("/".intercalate (base :: parts))

/-- Whether a command that deletes may go on: it was told not to ask, or the answer was yes. No answer is none. -/
structure Prompt where
  promptDeletes : Bool
  answer : Option Char
  deriving DecidableEq, Repr

def cancelDelete (answer : Option Char) : Bool := answer != some 'y' && answer != some 'Y'

def Prompt.cancels (prompt : Prompt) : Bool := prompt.promptDeletes && cancelDelete prompt.answer

/-- The requests of a command that deletes, one for each URL. How they go is not looked at. -/
def deleteAll (prompt : Prompt) (urls : List String) : Except Fault Plan :=
  .ok (if prompt.cancels then .nothing
    else { calls := urls.map (fun url => { method := .delete, url := url }), ignores := true })

/-! ## What the commands of one kind do alike -/

def listEntity (base : String) : Except Fault Plan := execGet base

def addEntity (base : String) : List String → Except Fault Plan
  | alias' :: _ => execPost (urlOf base [alias'])
  | _ => .error .nullString

def getEntity (base : String) : List String → Except Fault Plan
  | alias' :: _ => execGet (urlOf base [alias'])
  | _ => .error .nullString

def setEntity (base tag : String) : List String → Except Fault Plan
  | alias' :: _ => execPut base dataSize (jsObject [jsStr tag alias'])
  | _ => .error .nullString

def delEntity (prompt : Prompt) (base : String) (p : List String) : Except Fault Plan :=
  deleteAll prompt (p.map (fun alias' => urlOf base [alias']))

def renameEntity (base tag : String) : List String → Except Fault Plan
  | old :: new :: _ => execPatch (urlOf base [old]) dataSize (jsObject [jsStr tag new])
  | _ => .error .nullString

/-- A method of a target. -/
def postMethod (base method : String) : List String → Except Fault Plan
  | alias' :: _ => execPost (urlOf base [alias', method])
  | _ => .error .nullString

def linkEntity (base kind : String) : List String → Except Fault Plan
  | member :: group :: _ => execPost (urlOf base [group, kind, member])
  | _ => .error .nullString

def unlinkEntity (prompt : Prompt) (base kind : String) : List String → Except Fault Plan
  | member :: group :: _ => if prompt.cancels then .ok .nothing else execDelete (urlOf base [group, kind, member])
  | _ => .error .nullString

/-! ## The daemon -/

def demConfig (base : String) : Except Fault Plan := execGet base

def demShutdown (base : String) : Except Fault Plan := execPost (urlOf base [methodShutdown])

/-! ## Groups -/

def listGroup (base : String) : Except Fault Plan := listEntity base
def addGroup (base : String) (p : List String) : Except Fault Plan := addEntity base p
def setGroup (base : String) (p : List String) : Except Fault Plan := setEntity base tagName p
def getGroup (base : String) (p : List String) : Except Fault Plan := getEntity base p
def delGroup (prompt : Prompt) (base : String) (p : List String) : Except Fault Plan := delEntity prompt base p

/-- The body has a blank before its brace. -/
def renameGroup (base : String) : List String → Except Fault Plan
  | old :: new :: _ => execPatch (urlOf base [old]) dataSize ("\x7b" ++ jsStr tagName new ++ " \x7d")
  | _ => .error .nullString

/-! ## Targets -/

def listTarget (base : String) : Except Fault Plan := listEntity base
def addTarget (base : String) (p : List String) : Except Fault Plan := addEntity base p
def getTarget (base : String) (p : List String) : Except Fault Plan := getEntity base p
def setTarget (base : String) (p : List String) : Except Fault Plan := setEntity base tagAlias p

/-- `JSTAG` and an object behind it. -/
def jsTag (tag object : String) : String := s!"\"{tag}\":{object}"

def tagLocalMgmt : String := "LocalMgmt"

def setInbMgmt (base : String) : List String → Except Fault Plan
  | alias' :: type :: family :: address :: port :: _ =>
    execPatch (urlOf base [alias']) dataSize
      (jsObject [jsStr tagMgmtMode tagInBandMgmt,
        jsTag tagInterface (jsObject [jsStr tagType type, jsStr tagFamily family, jsStr tagAddress address,
          jsIndx tagTrsvcid (atoi port.toList)])])
  | _ => .error .nullString

def setOobMgmt (base : String) : List String → Except Fault Plan
  | alias' :: family :: address :: port :: _ =>
    execPatch (urlOf base [alias']) dataSize
      (jsObject [jsStr tagMgmtMode tagOutOfBandMgmt,
        jsTag tagInterface (jsObject [jsStr tagIffamily family, jsStr tagIfaddress address, jsIndx tagIfport (atoi port.toList)])])
  | _ => .error .nullString

def setLocalMgmt (base : String) : List String → Except Fault Plan
  | alias' :: _ => execPatch (urlOf base [alias']) dataSize (jsObject [jsStr tagMgmtMode tagLocalMgmt])
  | _ => .error .nullString

def setRefresh (base : String) : List String → Except Fault Plan
  | alias' :: refresh :: _ => execPatch (urlOf base [alias']) dataSize (jsObject [jsIndx tagRefresh (atoi refresh.toList)])
  | _ => .error .nullString

def delTarget (prompt : Prompt) (base : String) (p : List String) : Except Fault Plan := delEntity prompt base p
def renameTarget (base : String) (p : List String) : Except Fault Plan := renameEntity base tagAlias p
def refreshTarget (base : String) (p : List String) : Except Fault Plan := postMethod base methodRefresh p
def reconfigTarget (base : String) (p : List String) : Except Fault Plan := postMethod base methodReconfig p
def linkTarget (base : String) (p : List String) : Except Fault Plan := linkEntity base uriTarget p
def unlinkTarget (prompt : Prompt) (base : String) (p : List String) : Except Fault Plan := unlinkEntity prompt base uriTarget p

def usageTarget (base : String) : List String → Except Fault Plan
  | alias' :: _ => execGet (urlOf base [alias', uriUsage])
  | _ => .error .nullString

/-! ## Subsystems -/

def addSubsys (base : String) : List String → Except Fault Plan
  | alias' :: nqn :: _ => execPost (urlOf base [alias', uriSubsystem, nqn])
  | _ => .error .nullString

def setSubsys (base : String) : List String → Except Fault Plan
  | alias' :: nqn :: allowAny :: _ =>
    execPut (urlOf base [alias', uriSubsystem]) dataSize
      (jsObject [jsStr tagSubnqn nqn, jsIndx tagAllowAny (atoi allowAny.toList)])
  | _ => .error .nullString

def editSubsys (base : String) : List String → Except Fault Plan
  | alias' :: nqn :: allowAny :: _ =>
    execPut (urlOf base [alias', uriSubsystem, nqn]) dataSize (jsObject [jsIndx tagAllowAny (atoi allowAny.toList)])
  | _ => .error .nullString

def delSubsys (prompt : Prompt) (base : String) : List String → Except Fault Plan
  | alias' :: p => deleteAll prompt (p.map (fun nqn => urlOf base [alias', uriSubsystem, nqn]))
  | _ => .error .nullString

def renameSubsys (base : String) : List String → Except Fault Plan
  | alias' :: old :: new :: _ =>
    execPatch (urlOf base [alias', uriSubsystem, old]) dataSize (jsObject [jsStr tagSubnqn new])
  | _ => .error .nullString

/-! ## Ports -/

def setPortid (base : String) : List String → Except Fault Plan
  | alias' :: portid :: type :: family :: address :: trsvcid :: _ =>
    execPut (urlOf base [alias', uriPortid]) dataSize
      (jsObject [jsIndx tagPortid (atoi portid.toList), jsStr tagType type, jsStr tagFamily family, jsStr tagAddress address,
        jsIndx tagTrsvcid (atoi trsvcid.toList)])
  | _ => .error .nullString

def editPortid (base : String) : List String → Except Fault Plan
  | alias' :: portid :: type :: family :: address :: trsvcid :: _ =>
    execPut (urlOf base [alias', uriPortid, toString (atoi portid.toList)]) dataSize
      (jsObject [jsStr tagType type, jsStr tagFamily family, jsStr tagAddress address, jsIndx tagTrsvcid (atoi trsvcid.toList)])
  | _ => .error .nullString

def delPortid (prompt : Prompt) (base : String) : List String → Except Fault Plan
  | alias' :: p => deleteAll prompt (p.map (fun portid => urlOf base [alias', uriPortid, portid]))
  | _ => .error .nullString

/-! ## Access -/

/-- The buffer of this body is larger than the others. -/
def setAcl (base : String) : List String → Except Fault Plan
  | alias' :: ss :: host :: _ =>
    execPut (urlOf base [alias', uriSubsystem, ss, uriHost]) aclDataSize (jsObject [jsStr tagAlias host])
  | _ => .error .nullString

def delAcl (prompt : Prompt) (base : String) : List String → Except Fault Plan
  | alias' :: ss :: p => deleteAll prompt (p.map (fun host => urlOf base [alias', uriSubsystem, ss, uriHost, host]))
  | _ => .error .nullString

/-! ## Namespaces -/

/-- The number of a device: the null block device has a name. -/
def devidOf (devid : String) : Int := if devid ≠ "nullb0" then atoi devid.toList else -1

def setNs (base : String) : List String → Except Fault Plan
  | alias' :: subsys :: nsid :: devid :: devnsid :: _ =>
    execPut (urlOf base [alias', uriSubsystem, subsys, uriNsid]) dataSize
      (jsObject [jsIndx tagNsid (atoi nsid.toList), jsIndx tagDevid (devidOf devid), jsIndx tagDevnsid (atoi devnsid.toList)])
  | _ => .error .nullString

/-- The URLs are printed behind one that was printed, and perhaps cut, before. -/
def delNs (prompt : Prompt) (base : String) : List String → Except Fault Plan
  | alias' :: subsys :: p =>
    let baseUrl := urlOf base [alias', uriSubsystem, subsys, uriNsid]
    deleteAll prompt (p.map (fun nsid => urlOf baseUrl [toString (atoi nsid.toList)]))
  | _ => .error .nullString

/-! ## Hosts -/

def listHost (base : String) : Except Fault Plan := listEntity base
def addHost (base : String) (p : List String) : Except Fault Plan := addEntity base p
def getHost (base : String) (p : List String) : Except Fault Plan := getEntity base p

def setHost (base : String) : List String → Except Fault Plan
  | alias' :: nqn :: _ => execPut base dataSize (jsObject [jsStr tagAlias alias', jsStr tagHostnqn nqn])
  | _ => .error .nullString

def editHost (base : String) : List String → Except Fault Plan
  | alias' :: nqn :: _ => execPut (urlOf base [alias']) dataSize (jsObject [jsStr tagHostnqn nqn])
  | _ => .error .nullString

def delHost (prompt : Prompt) (base : String) (p : List String) : Except Fault Plan := delEntity prompt base p
def renameHost (base : String) (p : List String) : Except Fault Plan := renameEntity base tagAlias p
def linkHost (base : String) (p : List String) : Except Fault Plan := linkEntity base uriHost p
def unlinkHost (prompt : Prompt) (base : String) (p : List String) : Except Fault Plan := unlinkEntity prompt base uriHost p

end NvmeDem.Cli
