import SimpleRsyncd.Module.Filter
import SimpleRsyncd.Protocol.Listing
import SimpleRsyncd.Session.Announcement.Basic

/-!
This module determines what the patterns of a module keep a client away from, which is nothing: a file
with a name that the patterns filter is listed like any other.
-/

namespace SimpleRsyncd

open ProtocolParser

/--
What reaches the client.
-/
def Event.isSent : Event → Bool
  | .response _ _ | .data _ _ => true
  | _ => false

namespace World

/--
What a client is sent during some calls of `processRequest`, and the file system after them.
-/
def exchange (w : World) (envs : List Env) (fs : FileSystem) : List Event × FileSystem :=
  let w' := envs.foldl (fun w env => (w.processRequest env).2) { w with fs }
  (w'.trace.filter Event.isSent, w'.fs)

/--
There is no other module.
-/
def Offers (w : World) (m : Module) : Prop :=
  ∀ name m', w.session.handler.getModule name = some m' → m' = m

/--
A new session whose only module has any name.
-/
def offering (m : Module) : World :=
  { session := { clientSocket := 4, config := none, handler := { modules := fun _ => some m } }, fs := { entries := [] } }

theorem fresh_offering (m : Module) : (offering m).Fresh where
  socket := by simp [offering]
  active := rfl
  noUser := rfl
  noModule := rfl
  idle := rfl
  noUpload := rfl
  noDownload := rfl
  noRemaining := rfl
  noSent := rfl
  noTrace := rfl

theorem offers_offering (m : Module) : (offering m).Offers m := by
  intro name m' h
  exact (Option.some.inj h).symm

def asking (request : String) : Env :=
  { recv := some (bytes request) }

theorem processMessage_list {w : World} {env : Env} {request response : Bytes} (hvalid : (parse request).valid = true)
    (hlist : (parse request).command = .list) (hgate : w.session.awaitsKey = false)
    (hhandle : (w.session.handler.setModule (w.session.handler.moduleName (parse request).module)).handle env.host
      (parse request) w.fs = (.ok response, w.fs))
    : w.processMessage env request
      = (w.answering (parse request) [.handled (parse request)]).respond (env.send 0) response := by
  rw [processMessage_handled hvalid (by simp [hlist]) hgate]
  dsimp only
  rw [hhandle]
  simp only [finishRequest, hlist, reduceCtorEq, decide_false, Bool.and_false, Bool.false_eq_true, if_false]
  rfl

end World

namespace Module

open World

variable {m : Module} {fs : FileSystem} {dir : Loc} {n : Name}

/--
If the patterns keep the file out, the requests to a session have nothing to do with it.
-/
def RequestsEnforce (m : Module) (fs : FileSystem) (dir : Loc) (n : Name) : Prop :=
  m.config.filters n.toBytes = true →
    ∀ w : World, w.Fresh → w.Offers m → ∀ envs, FileSystem.Ignores (w.exchange envs) fs (dir ++ [n])

theorem parse_list
    : parse (bytes "LIST m\n") = { command := .list, module := bytes "m", valid := true } := by
  decide

theorem handle_list {listing : DirectoryListing} {h : ProtocolHandler} {message : ProtocolMessage}
    (hvalid : message.valid = true) (hcommand : message.command = .list) (hpath : message.path = [])
    (hplain : message.arguments = []) (hmodule : h.getModule (h.moduleName message.module) = some m)
    (hallowed : m.allowsListing = true) (hlisting : m.listDirectory {} fs [] false = .ok listing)
    : h.handle {} message fs = (.ok (ProtocolHandler.formatListing listing), fs) := by
  simp [ProtocolHandler.handle, ProtocolHandler.handleList, hvalid, hcommand, hpath, hplain, hmodule, hallowed,
    hlisting]

theorem exchange_list {listing : DirectoryListing} (hallowed : m.allowsListing = true)
    (hlisting : m.listDirectory {} fs [] false = .ok listing)
    : ((offering m).exchange [asking "LIST m\n"] fs).1
      = [.response (ProtocolHandler.formatListing listing) (ProtocolHandler.formatListing listing).length] := by
  have hread : { offering m with fs }.session.readSocket (asking "LIST m\n").recv requestSize
      = (some (bytes "LIST m\n"), { offering m with fs }.session) := by
    have htake : (bytes "LIST m\n").take requestSize = bytes "LIST m\n" := by decide
    simp [Session.readSocket, Session.isSecure, offering, asking, htake]
  have hhandle : ((offering m).session.handler.setModule (bytes "m")).handle {} (parse (bytes "LIST m\n")) fs
      = (.ok (ProtocolHandler.formatListing listing), fs) := by
    rw [parse_list]
    exact handle_list rfl rfl rfl rfl rfl hallowed hlisting
  have hanswer : World.processRequest (asking "LIST m\n") { offering m with fs }
      = ({ offering m with fs }.answering (parse (bytes "LIST m\n")) [.handled (parse (bytes "LIST m\n"))]).respond
        some (ProtocolHandler.formatListing listing) := by
    rw [processRequest_of_read _ _ rfl rfl hread (by decide), processMessage_list (by decide) (by decide) rfl hhandle]
    rfl
  have hlength : (ProtocolHandler.formatListing listing).length ≠ 0 := by
    simp [ProtocolHandler.formatListing, bytes]
  obtain ⟨k, hk⟩ := Nat.exists_eq_succ_of_ne_zero hlength
  simp only [exchange, List.foldl_cons, List.foldl_nil, hanswer]
  simp [respond, writeResponse, Session.canRespond, Session.writeSocket, Session.isSecure, answering, offering, hk,
    log, Event.isSent]

theorem not_ignores_list (h : m.HasPlace fs dir n) (hallowed : m.allowsListing = true)
    (hroot : fs.resolve m.config.path = .ok dir)
    : ¬FileSystem.Ignores ((offering m).exchange [asking "LIST m\n"]) fs (dir ++ [n]) := by
  intro hignores
  have hdir : fs.kind (dir ++ []) = some .dir := by simpa using h.isDirectory
  have hfree : fs.IsFree (dir ++ [] ++ [n]) := by simpa using h.free
  obtain ⟨listing, listing', hlisting, hlisting', hpath, hlt⟩ :=
    totalFiles_lt {} false [] hroot hdir hfree (.inr rfl)
  have heq := hignores.outcome none (some [])
  rw [List.append_nil] at hlisting hlisting'
  rw [exchange_list hallowed hlisting, exchange_list hallowed hlisting'] at heq
  obtain ⟨htext, -⟩ := Event.response.inj (List.singleton_inj.mp heq)
  exact absurd (ProtocolHandler.totalFiles_of_formatListing hpath htext) hlt.ne

/--
The patterns of a module are enforced for a file below its root if and only if they do not filter it: the
operations count it in a listing, and so do the requests if it is in the root and the module is listed.
-/
theorem enforces_iff (h : m.HasPlace fs dir n)
    : (m.OperationsEnforce fs dir n ∧ m.RequestsEnforce fs dir n ↔ m.config.filters n.toBytes = false)
        ∧ (m.OperationsEnforce fs dir n ↔ m.config.filters n.toBytes = false)
        ∧ (m.allowsListing = true → fs.resolve m.config.path = .ok dir →
            (m.RequestsEnforce fs dir n ↔ m.config.filters n.toBytes = false)) := by
  have hoperations : m.OperationsEnforce fs dir n ↔ m.config.filters n.toBytes = false := by
    constructor
    . intro henforce
      by_contra hfilters
      exact not_ignores_listDirectory h {} (henforce (by simpa using hfilters) _ _)
    . intro hfilters hcontra
      simp [hfilters] at hcontra
  have hrequests : m.config.filters n.toBytes = false → m.RequestsEnforce fs dir n := by
    intro hfilters hcontra
    simp [hfilters] at hcontra
  refine ⟨⟨fun henforce => hoperations.mp henforce.1, fun hfilters => ⟨hoperations.mpr hfilters, hrequests hfilters⟩⟩,
    hoperations, ?_⟩
  intro hallowed hroot
  refine ⟨?_, hrequests⟩
  intro henforce
  by_contra hfilters
  exact not_ignores_list h hallowed hroot
    (henforce (by simpa using hfilters) _ (fresh_offering m) (offers_offering m) _)

/--
A module that excludes every name that starts with `f`.
-/
def patterned : Module :=
  { config := { path := bytes "/m", allowDelete := true, excludePatterns := [bytes "f*"] } }

def filterFile : FileSystem :=
  { entries := [(moduleRoot, .dir [(fileName, .file (bytes "x"))])] }

theorem hasPlace_single : patterned.HasPlace filterFile [moduleRoot] fileName where
  below := ⟨[moduleRoot], [], by decide, rfl⟩
  isDirectory := by decide
  free := .inr (by decide)

theorem enforces_single : ¬patterned.OperationsEnforce filterFile [moduleRoot] fileName := by
  rw [(enforces_iff hasPlace_single).2.1]
  decide

def uploadName : Name := ⟨bytes "f.tmp", by decide⟩

/--
A request to the module treats a file that is excluded like any other: it is listed, sent, described and
deleted, and an upload creates another one that is excluded.
-/
theorem not_enforces_single
    : ¬(patterned.OperationsEnforce filterFile [moduleRoot] fileName
          ∧ patterned.RequestsEnforce filterFile [moduleRoot] fileName)
        ∧ ((offering patterned).exchange [asking "LIST m\n"] filterFile).1
          = [.response (bytes "@RSYNCD: OK\nPath: \nFiles: 1\nDirectories: 0\nTotal size: 1\nF f 1\n") 63]
        ∧ ((offering patterned).exchange [asking "GET m f\n"] filterFile).1
          = [.data (bytes "x") 1, .response transferComplete 30]
        ∧ ((offering patterned).exchange [asking "STAT m f\n"] filterFile).1
          = [.response (bytes "@RSYNCD: OK\nName: f\nPath: /m/f\nSize: 1\nType: 1\nIs symlink: no\n") 62]
        ∧ patterned.config.filters uploadName.toBytes = true
        ∧ ((offering patterned).exchange [asking "PUT m f\n", asking "y", asking ""] filterFile).2.data
          [moduleRoot, uploadName] = some (bytes "y")
        ∧ ((offering patterned).exchange [asking "DELETE m f\n"] filterFile).2.data [moduleRoot, fileName] = none := by
  refine ⟨?_, by decide +kernel, by decide +kernel, by decide +kernel, by decide +kernel, by decide +kernel,
    by decide +kernel⟩
  rintro ⟨henforce, -⟩
  exact not_ignores_listDirectory hasPlace_single {} (henforce (by decide) _ _)

end Module
end SimpleRsyncd
