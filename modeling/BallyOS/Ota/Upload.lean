import Mathlib.Algebra.Group.Int.Defs
import Mathlib.Algebra.Group.Nat.Defs
import BallyOS.Ota.Updater

/-! The handler of a firmware upload, on the server's task, beside the tasks that
cancel the session. What ESP-IDF answers comes with the steps; it never receives more
than it was asked for, and does not end an image that nothing was written to. -/
namespace BallyOS.Ota
open Library

def kPasswordMaxLen : Nat := 33
def kChunkSize : Nat := 1024
def kSockErrTimeout : Int := -3

/-- `static_cast<int>` of a length. -/
def asInt (length : UInt32) : Int :=
  if length.toNat < 2 ^ 31 then length.toNat else (length.toNat : Int) - 2 ^ 32

/-- C strings are their bytes before the terminator. `body` are the bytes that the
peer declared and sends, as far as it comes. -/
structure Request where
  password : Option (List UInt8)
  contentLen : UInt32
  body : List UInt8
deriving Repr, DecidableEq

/-- An empty password is none; a header that does not fit was not fetched. -/
def Request.authorized (request : Request) (password : List UInt8) : Bool :=
  password = [] || match request.password with
    | none => false
    | some given => given.length < kPasswordMaxLen && given = password

inductive Response
  | wrongPassword
  | emptyBody
  | noPartition
  | beginFailed
  | writeFailed
  | ok
deriving Repr, DecidableEq

/-- How far the handler has come. -/
inductive Stage
  | accepted
  /-- `esp_ota_begin` succeeded. -/
  | begun
  | receiving (remaining : Int)
  | received (remaining : Int) (count : Nat)
  /-- The loop broke with `write_error`. -/
  | broken
  /-- The flag is down. -/
  | closing (writeError : Bool)
deriving Repr, DecidableEq

/-- A request under way. `consumed` is how much of the body was received and passed
to `esp_ota_write`, `written` what was passed. -/
structure Upload where
  request : Request
  password : List UInt8
  partition : Nat := 0
  stage : Stage := .accepted
  consumed : Nat := 0
  written : List UInt8 := []
  writesOk : Bool := true
deriving Repr, DecidableEq

/-- A handler's return, with what it had done. -/
structure Return where
  request : Request
  password : List UInt8
  response : Response
  partition : Nat := 0
  written : List UInt8 := []
  writesOk : Bool := true
  endOk : Bool := false
  switched : Bool := false
  flashing : Bool
deriving Repr, DecidableEq

structure UploadServer where
  updater : Updater := {}
  password : List UInt8 := []
  bootPartition : Nat
  upload : Option Upload := none
  /-- Calls of `cancel` that are past its checks. -/
  cancelling : Nat := 0
  returns : List Return := []

/-- What `cancel` leaves, past its checks. -/
def Updater.restored (updater : Updater) : Updater :=
  { updater with
    server := false
    candidates := []
    candidateIndex := 0
    scanInFlight := false
    surveyOnly := false
    directMode := false
    phase := .idle }

inductive UploadEvent
  /-- A step of the search, other than those of an upload or a cancel. -/
  | updater (event : Event)
  | configure (password : Option (List UInt8))
  | cancel
  /-- The server has stopped under a `cancel`, which restores the rest. -/
  | stopServer
  | post (request : Request)
  | begin (partition : Option Nat) (began : Bool)
  | raiseFlag
  | recv (received : Int)
  | write (written : Bool)
  | lowerFlag
  | finish (ended bootSet : Bool)

namespace UploadServer

def respond (server : UploadServer) (request : Request) (password : List UInt8)
    (response : Response) : UploadServer :=
  { server with
    upload := none
    returns := server.returns ++
      [{ request, password, response, flashing := server.updater.flashing }] }

def goto (server : UploadServer) (upload : Upload) (stage : Stage) : UploadServer :=
  { server with upload := some { upload with stage } }

/-- The return from the handler once the flag is down. -/
def finished (server : UploadServer) (upload : Upload) (writeError ended bootSet : Bool) :
    UploadServer :=
  let switched := !writeError && ended && bootSet
  { server with
    upload := none
    bootPartition := if switched then upload.partition else server.bootPartition
    returns := server.returns ++ [{
      request := upload.request
      password := upload.password
      response := if switched then .ok else .writeFailed
      partition := upload.partition
      written := upload.written
      writesOk := upload.writesOk
      endOk := !writeError && ended
      switched
      flashing := server.updater.flashing }] }

/-- The search goes on by itself; a button's cancel is a `cancel`. -/
def searchStep (tuning : OtaTuning) (server : UploadServer) (event : Event) :
    Option UploadServer :=
  match event with
  | .cancel | .uploadStart | .uploadEnd => none
  | .tick pressed _ _ =>
    if server.updater.phase ≠ .idle ∧ server.updater.cancelsOn pressed then none
    else (Ota.step tuning server.updater event).map fun updater => { server with updater }
  | _ => (Ota.step tuning server.updater event).map fun updater => { server with updater }

/-- The handler's own steps. -/
def handlerStep (server : UploadServer) (upload : Upload) : UploadEvent → Option UploadServer
  | .begin partition began =>
    match upload.stage with
    | .accepted =>
      match partition with
      | none => some (server.respond upload.request upload.password .noPartition)
      | some partition =>
        if began then some (server.goto { upload with partition } .begun)
        else some (server.respond upload.request upload.password .beginFailed)
    | _ => none
  | .raiseFlag =>
    match upload.stage with
    | .begun =>
      some ({ server with updater.flashing := true }.goto upload
        (.receiving (asInt upload.request.contentLen)))
    | _ => none
  | .recv received =>
    match upload.stage with
    | .receiving remaining =>
      if remaining ≤ 0 ∨ min remaining kChunkSize < received then none
      else if received = kSockErrTimeout then some server
      else if received ≤ 0 then some (server.goto upload .broken)
      else some (server.goto upload (.received remaining received.toNat))
    | _ => none
  | .write written =>
    match upload.stage with
    | .received remaining count =>
      let passed := { upload with
        consumed := upload.consumed + count
        written := upload.written ++ (upload.request.body.drop upload.consumed).take count }
      if written then some (server.goto passed (.receiving (remaining - count)))
      else some (server.goto { passed with writesOk := false } .broken)
    | _ => none
  | .lowerFlag =>
    match upload.stage with
    | .receiving remaining =>
      if 0 < remaining then none
      else some ({ server with updater.flashing := false }.goto upload (.closing false))
    | .broken => some ({ server with updater.flashing := false }.goto upload (.closing true))
    | _ => none
  | .finish ended bootSet =>
    match upload.stage with
    | .closing writeError =>
      if writeError = false ∧ ended ∧ upload.written = [] then none
      else some (server.finished upload writeError ended bootSet)
    | _ => none
  | _ => none

def step (tuning : OtaTuning) : Machine UploadServer UploadEvent := fun server event =>
  match event with
  | .updater event => server.searchStep tuning event
  | .configure password => some { server with
      password := match password with
        | none => server.password
        | some given => given.take (kPasswordMaxLen - 1) }
  | .cancel =>
    if server.updater.flashing ∨ server.updater.phase = .idle then some server
    else some { server with cancelling := server.cancelling + 1 }
  | .stopServer =>
    -- The stop waits for the server's task, and so for a handler on it.
    if server.cancelling = 0 ∨ server.upload.isSome then none
    else some { server with
      updater := server.updater.restored
      cancelling := server.cancelling - 1 }
  | .post request =>
    if server.upload.isSome ∨ server.updater.server = false ∨
        request.body.length ≠ request.contentLen.toNat then none
    else if request.authorized server.password = false then
      some (server.respond request server.password .wrongPassword)
    else if request.contentLen = 0 then
      some (server.respond request server.password .emptyBody)
    else some { server with upload := some { request, password := server.password } }
  | event =>
    match server.upload with
    | none => none
    | some upload => server.handlerStep upload event

end UploadServer
end BallyOS.Ota
