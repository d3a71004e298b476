import FeedFilter.CommandLine.Run

open FeedFilter FeedFilter.CommandLine

-- Everything up to the end of a stream.
partial def readAll (stream : IO.FS.Stream) (found : ByteArray) : IO ByteArray := do
  let chunk ← stream.read 65536
  if chunk.isEmpty then return found else readAll stream (found ++ chunk)

def failureOf : IO.Error → FileFailure
  | .noFileOrDirectory _ _ _ => .notFound
  | .inappropriateType _ code _ => if code = 21 then .isDirectory else .notDirectory
  | .permissionDenied _ _ _ => .forbidden
  | .invalidArgument _ code _ =>
    if code = 36 || code = -36 then .nameTooLong else .other "invalid argument"
  | error => .other (toString error)

-- The contents of the settings file, if one is named.
def readSettings (path : Option String) : IO (Except FileFailure ByteArray) := do
  match path with
  | none => return .ok .empty
  | some path =>
    try
      return .ok (← IO.FS.readBinFile path)
    catch error =>
      return .error (failureOf error)

def main (args : List String) : IO UInt32 := do
  match Request.ofArguments? args with
  | none =>
    IO.eprintln "usage: feedql [-c FILE] [-l LEVEL] COMMAND [-t TIER] [OPTION]... [QUERY]..."
    return 2
  | some .version =>
    IO.println versionText
    return 0
  | some (.perform invocation) =>
    let file ← readSettings invocation.settingsPath
    let usable := (settings invocation.settingsPath file).1.isOk
    let input ←
      if usable && invocation.action.readsInput then readAll (← IO.getStdin) .empty
      else pure .empty
    let outcome := perform file input invocation
    for line in outcome.log do
      IO.eprintln line
    IO.print outcome.output
    return outcome.exit.toUInt32
