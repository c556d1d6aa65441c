import ToInet.Lib.FileTree
import ToInet.V3onionservice.V3BackupUtils

-- ZipUtilities.unzip where the output path may lead anywhere: the name of a backup is a text.
namespace ToInet.V3onionservice.ZipUtilities

open ToInet.Lib

variable {β : Type} (listing : Listing)

def components (path : String) : Path := ((path.toList.splitOn '/').map String.ofList).filter (· ≠ "")

-- What a foreign entry leads to: everything in the directory is deleted, and then the directory.
def cleanUp (t : FileTree β) (outputDir : Path) : FileTree β :=
  let t :=
    match t.listFiles listing outputDir with
    | some writtenFiles => writtenFiles.foldl (fun (t : FileTree β) writtenFile => t.delete outputDir writtenFile) t
    | none => t
  t.deletePath outputDir

-- A name of a configuration file is not that of a directory, which would end in a slash. An entry has
-- as its content what could be read of it.
def extractFromZipInputStream (outputDir : Path) (broken : Bool) (t : FileTree β) :
    List (String × β) → Bool × FileTree β
  | [] => (!broken, t)
  | (filename, content) :: entries =>
      if filename ∈ ONION_SERVICE_CONFIG_FILES then
        match t.write outputDir filename content with
        | some t => extractFromZipInputStream outputDir broken t entries
        | none => (false, t)
      else (false, cleanUp listing t outputDir)

-- A zip file that cannot be opened is an IOException as well.
def unzip (t : FileTree β) (outputPath : String) : Option (Zip β) → Bool × FileTree β
  | some zip =>
      let outputDir := components outputPath
      extractFromZipInputStream listing outputDir zip.broken (t.mkdirs outputDir) zip.entries
  | none => (false, t)

end ToInet.V3onionservice.ZipUtilities
