import Kirin.Core.BuildWrapper

/-!
# Kirin: the GTFS-RT poller

This module follows `gtfs_poller` of `kirin/gtfs_rt/tasks.py`, with the part of
`wrap_build` that decides whether the same data may be processed again.  A poll
reads the ETag of the feed and gives up when it is the one that is remembered.

A poll comes with what is answered from outside: any request to the producer, to
navitia, to redis or to the database may raise.  What the poller keeps from one
poll to the next is the remembered ETag.

* `isNewer`: the comparison of the ETags, after which the new one is remembered.
* `wrapBuildEtag`: the exits of the processing, and what they leave remembered.
* `gtfsPoller`: one poll.
-/

namespace Kirin
namespace GtfsRt

open Kirin.Core

/-- The ETag that is remembered, if any. -/
abbrev EtagMemory := Option String

/-- The answer to the HEAD request: an exception, or the ETag if there is one. -/
inductive HeadAnswer
  | raised
  | answered (etag : Option String)
deriving DecidableEq, Repr

/-- What happens during a call to `wrap_build`. -/
structure WrapBuildAnswers where
  buildRtUpdate : Except PyException Unit
  buildTripUpdates : Except PyException Unit
  handle : Except PyException Unit
  /-- Whether the contributor of the feed can be read and its ETag deleted. -/
  deleteEtag : Bool
  /-- Whether the status of a feed that raised can be committed. -/
  commit : Bool

/-- How a call to `wrap_build` ends. -/
inductive WrapBuildResult
  | returned
  | raised (e : PyException)
  /-- Another exception was raised while handling the first one. -/
  | raisedAgain
deriving DecidableEq, Repr

/-- What happens during a poll. -/
structure Poll where
  locked : Bool
  hasFeedUrl : Bool
  isLastCallTooRecent : Bool
  head : HeadAnswer
  getEtag : Bool
  setEtag : Bool
  /-- Whether the feed is retrieved, with a successful status. -/
  retrieveGtfsrt : Bool
  /-- Whether an HTTP error can be stored. -/
  saveError : Bool
  deleteEtag : Bool
  /-- Whether the builder is constructed: it asks navitia for a date. -/
  makeBuilder : Bool
  wrapBuild : WrapBuildAnswers

/-- How a poll ends. -/
inductive PollResult
  | notPolled
  | sameEtag (etag : String)
  | notRetrieved
  | notBuilt
  | processed (result : WrapBuildResult)
deriving DecidableEq, Repr

/-- Forget the ETag, and tell whether this got through. -/
def allowReprocessSameData (deleteEtag : Bool) (memory : EtagMemory) :
    EtagMemory × Bool :=
  if deleteEtag then (none, true) else (memory, false)

/--
The ETag that is the same as the remembered one, or none when the feed has to be
polled; a new one is remembered before anything else is done.
-/
def isNewer (p : Poll) (memory : EtagMemory) : EtagMemory × Option String :=
  match p.head with
  | .raised => (memory, none)
  | .answered none => (memory, none)
  | .answered (some newEtag) =>
      if newEtag = "" then (memory, none)
      else if !p.getEtag then (memory, none)
      else if memory = some newEtag then (memory, some newEtag)
      else if !p.setEtag then (memory, none)
      else (some newEtag, none)

/-- The ETag is forgotten, unless the HTTP error cannot be stored first. -/
def manageDbError (p : Poll) (memory : EtagMemory) : EtagMemory :=
  if p.saveError then (allowReprocessSameData p.deleteEtag memory).1 else memory

/-- The processing of a feed, as far as the ETag is concerned. -/
def wrapBuildEtag (a : WrapBuildAnswers) (memory : EtagMemory) :
    EtagMemory × WrapBuildResult :=
  match a.buildRtUpdate with
  | .error e =>
      let forgotten := allowReprocessSameData a.deleteEtag memory
      (forgotten.1, if forgotten.2 then .raised e else .raisedAgain)
  | .ok () =>
      match a.buildTripUpdates >>= fun _ => a.handle with
      | .ok () => (memory, .returned)
      | .error e =>
          -- the same invalid input is not worth being processed again
          let forgotten :=
            if isInvalidInputException e then (memory, true)
            else allowReprocessSameData a.deleteEtag memory
          (forgotten.1,
            if forgotten.2 && a.commit then .raised e else .raisedAgain)

/-- One poll: the ETag that is then remembered, and how the poll ends. -/
def gtfsPoller (p : Poll) (memory : EtagMemory) : EtagMemory × PollResult :=
  if !p.locked || !p.hasFeedUrl || p.isLastCallTooRecent then
    (memory, .notPolled)
  else
    match isNewer p memory with
    | (memory, some etag) => (memory, .sameEtag etag)
    | (memory, none) =>
        if !p.retrieveGtfsrt then (manageDbError p memory, .notRetrieved)
        else if !p.makeBuilder then (memory, .notBuilt)
        else
          let processed := wrapBuildEtag p.wrapBuild memory
          (processed.1, .processed processed.2)

/-- The ETag that is remembered after some polls. -/
def pollAll (memory : EtagMemory) (polls : List Poll) : EtagMemory :=
  polls.foldl (fun memory p => (gtfsPoller p memory).1) memory

namespace Sample

/-- A poll of a feed with the given ETag, in which nothing fails. -/
def poll (etag : String) : Poll where
  locked := true
  hasFeedUrl := true
  isLastCallTooRecent := false
  head := .answered (some etag)
  getEtag := true
  setEtag := true
  retrieveGtfsrt := true
  saveError := true
  deleteEtag := true
  makeBuilder := true
  wrapBuild :=
    { buildRtUpdate := .ok ()
      buildTripUpdates := .ok ()
      handle := .ok ()
      deleteEtag := true
      commit := true }

end Sample

end GtfsRt
end Kirin
