import Hixl.InterleavedCalls
import Mathlib.Data.List.AList

/-!
# Connections and channels of the control server

The listener thread of `HixlCSServer` accepts connections, advances their
handshakes and receives messages; workers create the channel of a connection
and destroy it once the connection is unusable.

The calls stop between any two critical sections of `client_mutex_` and
`chn_mutex_`.  `fdOf` is `connection->Fd()`, absent once the connection is
closed; a new connection gets a descriptor that no open one has.  `Finalize` is
not modelled.  `created`, `destroyed`, `cleaned` and `sent` are records.
-/

namespace Hixl

open InterleavedCalls

inductive ServerMsg where
  | createChannelReq
  | destroyChannelReq
  | other
  deriving DecidableEq, Repr

structure CsServer where
  fdOf : ℕ → Option ℕ := fun _ => none
  nextConnection : ℕ := 0
  pendingHandshakes : AList (fun _ : ℕ => ℕ) := ∅
  clients : AList (fun _ : ℕ => ℕ) := ∅
  disconnectedClients : List ℕ := []
  channels : AList (fun _ : ℕ => ℕ) := ∅
  reqQueue : List (ℕ × ServerMsg) := []
  nextChannel : ℕ := 0
  created : List (ℕ × ℕ) := []
  destroyed : List (ℕ × ℕ) := []
  cleaned : List ℕ := []
  sent : ℕ → List ServerMsg := fun _ => []

inductive HandshakeState where
  | failed
  | wantMore
  | complete
  deriving DecidableEq, Repr

structure ServerInput where
  ok : Bool := true
  hangup : Bool := false
  usable : Bool := true
  handshake : HandshakeState := .complete
  msgs : List ServerMsg := []

inductive ServerCall where
  | acceptClient (fd : ℕ)
  | advanceHandshake (fd : ℕ)
  /-- `ExpireHandshakes` for one connection -/
  | expireHandshake (fd : ℕ)
  | handleClientEvent (fd : ℕ)
  /-- `ProcessPendingMsg` for one receiver -/
  | processPendingMsg (fd : ℕ)
  | proClientMsg (connection : ℕ)
  /-- `CleanupClient`, before it reads the descriptor -/
  | cleanupClient (connection : ℕ)
  /-- `CleanupClient`, before it looks for the descriptor -/
  | cleanupFound (connection fd : ℕ)
  /-- `CleanupClient`, before it submits the message -/
  | submitCleanup (connection : ℕ)
  /-- `MsgHandler::HandleMsg`, before it takes a message -/
  | takeMsg
  | process (connection : ℕ) (msg : ServerMsg)
  /-- `CreateChannel`, before `TrackChannelIfConnected` -/
  | trackChannel (connection channel : ℕ)
  /-- `CreateChannel`, before it destroys an untracked channel -/
  | discardChannel (connection channel : ℕ)
  /-- `CreateChannel`, before it sends the response -/
  | respond (connection : ℕ)
  /-- `DestroyChannel`, before it looks for the channel -/
  | findChannel (connection : ℕ) (closed : Bool)
  /-- `DestroyChannel`, before it calls the endpoint -/
  | destroyChannel (connection channel : ℕ) (closed : Bool)
  | forgetClient (connection : ℕ) (succeeded : Bool)
  | failedProcess (connection : ℕ)
  | done
  deriving DecidableEq, Repr

namespace CsServer

def fdFree (fd : ℕ) (s : CsServer) : Bool :=
  (List.range s.nextConnection).all fun c => s.fdOf c ≠ some fd

def close (connection : ℕ) (s : CsServer) : CsServer :=
  { s with fdOf := Function.update s.fdOf connection none }

def newConnection (fd : ℕ) (s : CsServer) : CsServer :=
  { s with
    fdOf := Function.update s.fdOf s.nextConnection (some fd)
    nextConnection := s.nextConnection + 1
    pendingHandshakes :=
      if fd ∈ s.pendingHandshakes then s.pendingHandshakes
      else s.pendingHandshakes.insert fd s.nextConnection }

/-- A handshake that has failed or expired: the connection is closed. -/
def dropHandshake (fd connection : ℕ) (s : CsServer) : CsServer :=
  close connection { s with pendingHandshakes := s.pendingHandshakes.erase fd }

/-- The established connection is published in `clients_`. -/
def publishClient (fd connection : ℕ) (s : CsServer) : CsServer :=
  { s with
    clients := s.clients.insert fd connection
    pendingHandshakes := s.pendingHandshakes.erase fd }

def submitMsgs (connection : ℕ) (msgs : List ServerMsg) (s : CsServer) : CsServer :=
  { s with reqQueue := s.reqQueue ++ msgs.map fun msg => (connection, msg) }

def receiveMsgs (connection : ℕ) (msgs : List ServerMsg) (s : CsServer) : CsServer :=
  { s.submitMsgs connection msgs with
    sent := Function.update s.sent connection (s.sent connection ++ msgs) }

/-- The critical section of `CleanupClient`. -/
def disconnectClient (fd connection : ℕ) (s : CsServer) : CsServer :=
  { s with
    disconnectedClients := connection :: s.disconnectedClients
    clients := s.clients.erase fd }

def createdChannel (connection : ℕ) (s : CsServer) : CsServer :=
  { s with
    created := (connection, s.nextChannel) :: s.created
    nextChannel := s.nextChannel + 1 }

def callDestroy (connection channel : ℕ) (s : CsServer) : CsServer :=
  { s with destroyed := (connection, channel) :: s.destroyed }

def isConnected (connection : ℕ) (s : CsServer) : Bool :=
  match s.fdOf connection with
  | none => false
  | some fd => s.clients.lookup fd = some connection

end CsServer

namespace ServerCall

def next (input : ServerInput) (s : CsServer) : ServerCall → Option (CsServer × ServerCall)
  | .acceptClient fd =>
    if s.fdFree fd then
      if input.ok then some (s.newConnection fd, .advanceHandshake fd)
      else some (s, .done)
    else none
  | .advanceHandshake fd =>
    match s.pendingHandshakes.lookup fd with
    | none => some (s, .done)
    | some connection =>
      match input.handshake with
      | .failed => some (s.dropHandshake fd connection, .done)
      | .wantMore => some (s, .done)
      | .complete =>
        if fd ∈ s.clients then
          some (s.dropHandshake fd connection, .done)
        else some (s.publishClient fd connection, .done)
  | .expireHandshake fd =>
    match s.pendingHandshakes.lookup fd with
    | none => some (s, .done)
    | some connection => some (s.dropHandshake fd connection, .done)
  | .handleClientEvent fd =>
    match s.pendingHandshakes.lookup fd with
    | some connection =>
      if input.hangup then some (s.dropHandshake fd connection, .done)
      else some (s, .advanceHandshake fd)
    | none =>
      match s.clients.lookup fd with
      | none => some (s, .done)
      | some connection =>
        if input.hangup then some (s, .cleanupClient connection)
        else some (s, .proClientMsg connection)
  | .processPendingMsg fd =>
    match s.clients.lookup fd with
    | none => some (s, .done)
    | some connection => some (s, .proClientMsg connection)
  | .proClientMsg connection =>
    match s.fdOf connection with
    | none => some (s, .cleanupClient connection)
    | some _ =>
      some (s.receiveMsgs connection input.msgs,
        if input.ok then .done else .cleanupClient connection)
  | .cleanupClient connection =>
    match s.fdOf connection with
    | none => some (s, .done)
    | some fd => some (s, if input.ok then .cleanupFound connection fd else .done)
  | .cleanupFound connection fd =>
    if s.clients.lookup fd = some connection then
      some (s.disconnectClient fd connection, .submitCleanup connection)
    else some (s, .done)
  | .submitCleanup connection => some (s.submitMsgs connection [.destroyChannelReq], .done)
  | .takeMsg =>
    match s.reqQueue with
    | [] => none
    | (connection, msg) :: queue =>
      some ({ s with reqQueue := queue },
        if input.ok then .process connection msg else .done)
  | .process connection .createChannelReq =>
    if input.ok then
      some (s.createdChannel connection, .trackChannel connection s.nextChannel)
    else some (s, .failedProcess connection)
  | .process connection .destroyChannelReq =>
    some (s.close connection, .findChannel connection input.ok)
  | .process connection .other => some (s, if input.ok then .done else .failedProcess connection)
  | .trackChannel connection channel =>
    if s.isConnected connection then
      some ({ s with channels := s.channels.insert connection channel }, .respond connection)
    else some (s, .discardChannel connection channel)
  | .discardChannel connection channel =>
    some (s.callDestroy connection channel, .failedProcess connection)
  | .respond connection => some (s, if input.ok then .done else .failedProcess connection)
  | .findChannel connection closed =>
    let cleaned := { s with cleaned := connection :: s.cleaned }
    match s.channels.lookup connection with
    | none => some (cleaned, .forgetClient connection closed)
    | some channel =>
      some ({ cleaned with channels := s.channels.erase connection },
        .destroyChannel connection channel closed)
  | .destroyChannel connection channel closed =>
    some (s.callDestroy connection channel, .forgetClient connection (closed && input.ok))
  | .forgetClient connection succeeded =>
    if succeeded then
      some ({ s with
        disconnectedClients := s.disconnectedClients.filter
          fun c => c ≠ connection }, .done)
    else some (s, .failedProcess connection)
  | .failedProcess connection =>
    if (s.fdOf connection).isSome && input.usable then some (s, .done)
    else some (s, .cleanupClient connection)
  | .done => none

def starts : ServerCall → Bool
  | .acceptClient _ | .expireHandshake _ | .handleClientEvent _ => true
  | .processPendingMsg _ | .takeMsg => true
  | _ => false

end ServerCall

def serverProgram : Program CsServer ServerCall ServerInput where
  starts := ServerCall.starts
  next := fun input s call => call.next input s

def serverStart : Config CsServer ServerCall where
  shared := {}
  calls := []

end Hixl
