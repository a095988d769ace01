import MeetDesk.Archive.Entry
import MeetDesk.Fault

/-!
# The archive

Threads of entries by name, the least recently used one first. Creating a thread and appending to it
use it; reading it does not. When there are more threads than the archive may hold, the least
recently used ones are dropped. An archive that may hold fewer than none drops everything and then
fails.

A thread that comes without a name gets one that the archive makes up. How it does that is a parameter:
the names are drawn one after the other from a source of which nothing is known but that it has no empty
name.
-/

namespace MeetDesk

/-- A source of names for threads that come without one. -/
structure NameSource where
  /-- The name that is drawn after so many others. -/
  name : Nat → String
  /-- No name is empty. -/
  name_ne_empty : ∀ drawn, name drawn ≠ ""

namespace NameSource

/-- A source that counts. -/
def counting : NameSource where
  name drawn := "thread " ++ toString (drawn + 1)
  name_ne_empty drawn h := by simp at h

end NameSource

/-- A bounded collection of threads. -/
structure Archive where
  /-- The most threads that are held. -/
  capacity : Int := 1000
  /-- The threads, the least recently used one first. -/
  threads : List (String × List Entry) := []
  /-- Where names are drawn from. -/
  source : NameSource := .counting
  /-- The number of names that were drawn. -/
  drawn : Nat := 0

namespace Archive

/-- The failure of an archive that has nothing left to drop. -/
def exhausted : Fault := ⟨.lookup, "KeyError", some "dictionary is empty"⟩

/-- The entries of a thread; a thread that is not held has none. -/
def get (a : Archive) (name : String) : List Entry := (a.threads.lookup name).getD []

/-- Whether a thread is held. -/
def holds (a : Archive) (name : String) : Bool := a.threads.any fun thread => thread.1 == name

/-- Makes a thread the most recently used one, with more entries at its end. A thread that is not
held starts empty. -/
def touch (a : Archive) (name : String) (entries : List Entry) : Archive :=
  { a with
    threads := (a.threads.filter fun thread => thread.1 != name) ++
      [(name, a.get name ++ entries)] }

/-- Drops the least recently used threads until no more than the capacity are held. -/
def evict (a : Archive) : Except Fault Unit × Archive :=
  if a.capacity < 0 then (.error exhausted, { a with threads := [] })
  else (.ok (), { a with threads := a.threads.drop (a.threads.length - a.capacity.toNat) })

/-- The name for the thread of a run: the given one, or the next one of the source if it is absent or
empty. -/
def nameFor (a : Archive) (name? : Option String) : String × Archive :=
  match name?.filter fun name => name != "" with
  | some name => (name, a)
  | none => (a.source.name a.drawn, { a with drawn := a.drawn + 1 })

/-- Creates the thread of a run, or takes the one that is there. Gives its name. -/
def create (a : Archive) (name? : Option String) : Except Fault String × Archive :=
  let named := a.nameFor name?
  match (named.2.touch named.1 []).evict with
  | (.ok (), kept) => (.ok named.1, kept)
  | (.error fault, kept) => (.error fault, kept)

/-- Adds entries to a thread. -/
def extend (a : Archive) (name : String) (entries : List Entry) : Except Fault Unit × Archive :=
  (a.touch name entries).evict

/-- Appends a message of the user, if there is one, and turns to a thread. -/
def append (a : Archive) (name : String) (message? : Option String) (turns : List Turn) :
    Except Fault Unit × Archive :=
  a.extend name (Entry.ofRun message? turns)

/-- The names of the threads, the least recently used one first. -/
def names (a : Archive) : List String := a.threads.map Prod.fst

end Archive

end MeetDesk
