import KixScript.Text.CaseFold

/-!
# The names of the language

Commands, built-in functions and macros, in lower case. Letter case never matters in a script.
-/

namespace KixScript

/-- The commands. -/
def commandNames : List String :=
  ["beep", "big", "break", "call", "case", "cd", "cls", "color", "cookie1", "copy", "debug", "del",
   "dim", "display", "do", "each", "else", "endfunction", "endif", "endselect", "exit", "flushkb",
   "for", "function", "get", "gets", "global", "go", "gosub", "goto", "if", "in", "loop", "md",
   "move", "next", "password", "play", "preserve", "quit", "rd", "redim", "return", "run", "select",
   "set", "setl", "setm", "settime", "shell", "sleep", "small", "step", "to", "until", "use",
   "while"]

/-- The built-in functions. -/
def functionNames : List String :=
  ["abs", "addkey", "addprinterconnection", "addprogramgroup", "addprogramitem", "asc", "ascan",
   "at", "backupeventlog", "box", "cdbl", "chr", "cint", "cleareventlog", "close",
   "comparefiletimes", "createobject", "cstr", "dectohex", "delkey", "delprinterconnection",
   "delprogramgroup", "delprogramitem", "deltree", "delvalue", "dir", "enumgroup", "enumipinfo",
   "enumkey", "enumlocalgroup", "enumvalue", "execute", "exist", "existkey",
   "expandenvironmentvars", "fix", "formatnumber", "freefilehandle", "getcommandline",
   "getdiskspace", "getfileattr", "getfilesize", "getfiletime", "getfileversion", "getobject",
   "iif", "ingroup", "instr", "instrrev", "int", "isdeclared", "join", "kbhit", "keyexist", "lcase",
   "left", "len", "loadhive", "loadkey", "logevent", "logoff", "ltrim", "memorysize", "messagebox",
   "open", "readline", "readprofilestring", "readtype", "readvalue", "redirectoutput", "right",
   "rnd", "round", "rtrim", "savekey", "sendkeys", "sendmessage", "setascii", "setconsole",
   "setdefaultprinter", "setfileattr", "setfocus", "setoption", "setsystemstate", "settitle",
   "setwallpaper", "showprogramgroup", "shutdown", "sidtoname", "split", "srnd", "substr", "trim",
   "ubound", "ucase", "unloadhive", "val", "vartype", "vartypename", "writeline",
   "writeprofilestring", "writevalue"]

/-- The macros, without their sigil. -/
def macroNames : List String :=
  ["address", "build", "color", "comment", "cpu", "crlf", "csd", "curdir", "date", "day", "domain",
   "dos", "error", "fullname", "homedir", "homedrive", "homeshr", "hostname", "inwin", "ipaddress0",
   "ipaddress1", "ipaddress2", "ipaddress3", "kix", "lanroot", "ldomain", "ldrive", "lm",
   "logonmode", "longhomedir", "lserver", "maxpwage", "mdayno", "mhz", "month", "monthno", "msecs",
   "onwow64", "pid", "primarygroup", "priv", "productsuite", "producttype", "pwage", "ras",
   "result", "rserver", "scriptdir", "scriptexe", "scriptname", "serror", "sid", "site", "startdir",
   "syslang", "ticks", "time", "tssession", "userid", "userlang", "wdayno", "wksta", "wuserid",
   "ydayno", "year"]

/-- Whether a text spells a command. -/
def isCommandName (text : List Char) : Bool :=
  commandNames.contains (String.ofList (lower text))

/-- Whether a text spells a built-in function. -/
def isFunctionName (text : List Char) : Bool :=
  functionNames.contains (String.ofList (lower text))

/-- The longest macro name that a text begins with. A script reads macros so: whatever follows the
name is dropped. -/
def longestMacro? (text : List Char) : Option String :=
  let name := lower text
  macroNames.foldl
    (fun best known =>
      if known.toList.isPrefixOf name && best.all (·.length < known.length) then some known
      else best)
    none

end KixScript
