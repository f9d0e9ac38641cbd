import RowStore.Assoc
import RowStore.Config
import RowStore.Page

/-!
The pages in memory.

1. The pool maps pages to frames; a `Frame` is a page with a stamp of its own, so that two loads
   of one page can be told apart.
2. The queue holds the pages in the order in which they came in or were last changed, the oldest
   first; the oldest is the next to leave.
3. A frame can be lent.  As long as it is in the pool, the holder sees every change of the page;
   when it leaves the pool it departs with the holder, who can still read and change it.
4. Requests that found their page are counted as hits, the others as misses.
-/

namespace RowStore

/-- A page in memory. -/
structure Frame where
  /-- Tells this load of the page from all others. -/
  stamp : Nat
  /-- The page. -/
  page : Page
  deriving DecidableEq

/-- The pages in memory. -/
structure Pool where
  /-- Number of bytes of a page. -/
  pageSize : Nat
  /-- The most pages there may be. -/
  capacity : Nat
  /-- The frames of the pages that are in memory. -/
  resident : List (PageId × Frame)
  /-- The same pages in the order in which they leave. -/
  queue : List PageId
  /-- The next stamp. -/
  nextStamp : Nat
  /-- The stamps of the frames that are lent. -/
  lent : List Nat
  /-- The lent frames that have left. -/
  departed : List Frame
  /-- Requests that found their page. -/
  hits : Nat
  /-- Requests that did not. -/
  misses : Nat
  deriving DecidableEq

namespace Pool

/-- A pool without pages. -/
def empty (config : Config) : Pool :=
  ⟨config.pageSize, config.poolPages, [], [], 0, [], [], 0, 0⟩

/-- The frame of a page, if it is in memory. -/
def find? (p : Pool) (id : PageId) : Option Frame := Assoc.find? id p.resident

/-- Whether a page is in memory. -/
def contains (p : Pool) (id : PageId) : Bool := (p.find? id).isSome

/-- Number of pages in memory. -/
def size (p : Pool) : Nat := p.resident.length

/-- Whether there is room for one more page. -/
def hasRoom (p : Pool) : Bool := p.size < p.capacity

/-! ## Coming and going -/

/-- Puts a page last in the queue. -/
def enqueue (p : Pool) (id : PageId) : Pool := { p with queue := p.queue.erase id ++ [id] }

/-- Puts a frame into the pool, in the place of any other frame of the page, and last in the
    queue. -/
def putFrame (p : Pool) (id : PageId) (frame : Frame) : Pool :=
  { p with resident := Assoc.put id frame p.resident }.enqueue id

/-- Takes a new page in. -/
def accept (p : Pool) (id : PageId) (page : Page) : Frame × Pool :=
  let frame : Frame := ⟨p.nextStamp, page⟩
  (frame, { p with nextStamp := p.nextStamp + 1 }.putFrame id frame)

/-- Lets a page go; the queue is not touched. -/
def release (p : Pool) (id : PageId) : Pool :=
  match p.find? id with
  | none => p
  | some frame =>
    { p with
      resident := Assoc.remove id p.resident
      departed := if p.lent.contains frame.stamp then frame :: p.departed else p.departed }

/-- Drops a page without writing it. -/
def discard (p : Pool) (id : PageId) : Pool :=
  if p.contains id then
    let p := p.release id
    { p with queue := p.queue.erase id }
  else p

/-! ## Frames -/

/-- The list with `frame` in the place of the frame of the same stamp. -/
def replaceFrame (frame old : Frame) : Frame := if old.stamp = frame.stamp then frame else old

/-- Changes the page of a frame, wherever the frame is. -/
def update (p : Pool) (frame : Frame) : Pool :=
  { p with
    resident := p.resident.map fun e => (e.1, replaceFrame frame e.2)
    departed := p.departed.map (replaceFrame frame) }

/-- Lends a frame. -/
def lend (p : Pool) (stamp : Nat) : Pool := { p with lent := stamp :: p.lent }

/-- A lent frame, in the pool or departed. -/
def lentFrame? (p : Pool) (stamp : Nat) : Option Frame :=
  (p.resident.map (·.2) ++ p.departed).find? (·.stamp == stamp)

/-! ## Counting -/

/-- One more hit. -/
def hit (p : Pool) : Pool := { p with hits := p.hits + 1 }

/-- One more miss. -/
def miss (p : Pool) : Pool := { p with misses := p.misses + 1 }

/-- No hits and no misses. -/
def resetCounts (p : Pool) : Pool := { p with hits := 0, misses := 0 }

/-- The part of the requests that found their page, in percent; zero before the first one. -/
def hitRate (p : Pool) : Float :=
  if p.hits + p.misses = 0 then 0.0
  else Float.ofNat p.hits / Float.ofNat (p.hits + p.misses) * 100.0

end Pool

end RowStore
