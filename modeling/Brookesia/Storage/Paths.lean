import Brookesia.Filesystem.Path

/-! # The paths of the storage service

What the storage service makes of the path of a call, before it reaches the file system. `roots` are the
mounted file systems. A file is named by the names of its normal path. -/

namespace Brookesia.Storage.Paths

open Filesystem.Path

abbrev FilePath := List Bytes

/-- What the storage says to a call that its path allows: an error, or nothing. -/
abbrev Outcome := Option Bytes

def pathHasParentReference (path : Bytes) : Bool := (split path).contains dotDot

def pathIsSameOrChild (path root : NormalPath) : Bool :=
  path.rooted = root.rooted && root.names.isPrefixOf path.names

def resolveFileSystemPath (roots : List NormalPath) (rawPath : Bytes) : Except Bytes FilePath :=
  if rawPath = [] then .error (text "Storage FS path is empty")
  else if !isAbsolute rawPath then .error (text "Storage FS path must be absolute: " ++ rawPath)
  else if pathHasParentReference rawPath then
    .error (text "Storage FS path must not contain '..': " ++ rawPath)
  else if roots.any (pathIsSameOrChild (lexicallyNormal rawPath)) then
    .ok (lexicallyNormal rawPath).names
  else .error (text "Storage FS path is outside mounted file systems: " ++ rawPath)

theorem resolveFileSystemPath_ok {roots : List NormalPath} {rawPath : Bytes} {path : FilePath}
    (h : resolveFileSystemPath roots rawPath = .ok path) :
    dotDot ∉ split rawPath ∧ path = (lexicallyNormal rawPath).names := by
  unfold resolveFileSystemPath at h
  split_ifs at h with _ _ hpart _
  unfold pathHasParentReference at hpart
  exact ⟨by simpa using hpart, by simpa using h.symm⟩

end Brookesia.Storage.Paths
