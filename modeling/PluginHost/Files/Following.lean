import PluginHost.Files.FileSystem

/-!
# Following paths

Where a path leads, as rules: part after part, from one directory to the next and behind symbolic
links, up to the place at its end or to the first thing in its way.
-/

namespace PluginHost.FileSystem

/-- A part of a path that names something in a directory. -/
structure IsName (part : String) : Prop where
  ne_empty : part ≠ ""
  ne_same : part ≠ "."
  ne_above : part ≠ ".."
  length_le : part.utf8ByteSize ≤ nameLimit

/-- The process may look names up in a directory. -/
structure Searchable (fs : FileSystem) (place : Place) : Prop where
  directory : fs.isDirectoryAt place = true
  permitted : fs.permits .search place = true

/-- Where the target of a link begins that stands in a directory. -/
def linkStart (directory : Place) (target : String) : Place :=
  if Path.isAbsolute target then [] else directory

/-- From a place, the parts of a path lead through so many links to another place, or to a fault. -/
inductive Follows (fs : FileSystem) :
    Nat → List String → Place → Except FileFault Place → Prop where
  | arrived {place e} (h : fs.at? place = some e) : Follows fs 0 [] place (.ok place)
  | lost {place} (h : fs.at? place = none) : Follows fs 0 [] place (.error .missing)
  | blocked {part rest place} (hd : fs.isDirectoryAt place = false) :
      Follows fs 0 (part :: rest) place (.error .notADirectory)
  | slash {links rest place result} (hd : fs.isDirectoryAt place = true)
      (h : Follows fs links rest place result) : Follows fs links ("" :: rest) place result
  | denied {part rest place} (hd : fs.isDirectoryAt place = true) (hp : part ≠ "")
      (hs : fs.permits .search place = false) :
      Follows fs 0 (part :: rest) place (.error .denied)
  | same {links rest place result} (hd : fs.Searchable place)
      (h : Follows fs links rest place result) : Follows fs links ("." :: rest) place result
  | above {links rest place result} (hd : fs.Searchable place)
      (h : Follows fs links rest place.dropLast result) :
      Follows fs links (".." :: rest) place result
  | tooLong {part rest place} (hd : fs.Searchable place)
      (hl : nameLimit < part.utf8ByteSize) :
      Follows fs 0 (part :: rest) place (.error .nameTooLong)
  | absent {part rest place} (hd : fs.Searchable place) (hn : IsName part)
      (he : fs.at? (place ++ [part]) = none) :
      Follows fs 0 (part :: rest) place (.error .missing)
  | link {links part rest place target permissions result} (hd : fs.Searchable place)
      (hn : IsName part) (he : fs.at? (place ++ [part]) = some ⟨.link target, permissions⟩)
      (h : Follows fs links (Path.parts target ++ rest) (linkStart place target) result) :
      Follows fs (links + 1) (part :: rest) place result
  | entered {links part rest place e result} (hd : fs.Searchable place)
      (hn : IsName part) (he : fs.at? (place ++ [part]) = some e)
      (hk : ∀ target, e.kind ≠ .link target)
      (h : Follows fs links rest (place ++ [part]) result) :
      Follows fs links (part :: rest) place result

/-- A path leads to a place, through as many links as the operating system follows. -/
def Leads (fs : FileSystem) (path : String) (place : Place) : Prop :=
  checkPath path = .ok () ∧ ∃ links, links ≤ linkLimit ∧
    fs.Follows links (Path.parts path) (fs.beginning path) (.ok place)

/-- A path leads nowhere: it is no path, or something on its way is at fault. -/
def Breaks (fs : FileSystem) (path : String) (fault : FileFault) : Prop :=
  checkPath path = .error fault ∨ checkPath path = .ok () ∧ ∃ links, links ≤ linkLimit ∧
    fs.Follows links (Path.parts path) (fs.beginning path) (.error fault)

end PluginHost.FileSystem
