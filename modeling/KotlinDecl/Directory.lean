namespace KotlinDecl

structure Directory where
  files : List (String × String) := []
  deriving Repr

namespace Directory

def read? (d : Directory) (path : String) : Option String := d.files.lookup path

def contains (d : Directory) (path : String) : Bool := (d.read? path).isSome

def write (d : Directory) (path text : String) : Directory :=
  ⟨(path, text) :: d.files.filter (·.1 ≠ path)⟩

def append (d : Directory) (path text : String) : Directory :=
  d.write path ((d.read? path).getD "" ++ text)

def split (path : List Char) : List Char × List Char :=
  let name := (path.reverse.takeWhile (· ≠ '/')).reverse
  (path.take (path.length - name.length), name)

/-- Folders exist through the files in them; the directory itself always exists. -/
def hasFolderOf (d : Directory) (path : String) : Bool :=
  let folder := (split path.toList).1
  folder.isEmpty || d.files.any fun f => (split f.1.toList).1 = folder

/-- The ending of a file name from its last dot on. A dot at either end of the name starts none. -/
def suffix (path : String) : List Char :=
  let name := (split path.toList).2
  let ending := (name.reverse.takeWhile (· ≠ '.')).reverse
  if ending.isEmpty || ending.length + 1 ≥ name.length then [] else '.' :: ending

end Directory

end KotlinDecl
