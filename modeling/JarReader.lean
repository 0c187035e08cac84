import JarReader.Main
import JarReader.Proofs.Command.Containment
import JarReader.Proofs.Command.Overwriting
import JarReader.Proofs.Guarded.Jar
import JarReader.Proofs.Jar.Preceded
import JarReader.Proofs.System.Roots
import JarReader.Proofs.Url.Resolution
import JarReader.Proofs.Url.RoundTrip
import JarReader.Proofs.Writing.Reading
import JarReader.Proofs.Directory.Extents
import JarReader.Proofs.Directory.Links
import JarReader.Proofs.Writing.Extents
import JarReader.Proofs.Guarded.Reading
import JarReader.Proofs.Jar.EntryData
import JarReader.Proofs.Manifest.Attributes
import JarReader.Proofs.Manifest.Lines
import JarReader.Proofs.Manifest.Writing
import JarReader.Proofs.Text.Pieces
import JarReader.Proofs.Manifest.Wrapping
import JarReader.Proofs.Text.Escapes
import JarReader.Proofs.Writing.Sector
import JarReader.Proofs.System.Ranges
import JarReader.Proofs.Guarded.Views
import JarReader.Proofs.View.Slices
import JarReader.Proofs.View.Sequence
import JarReader.Proofs.System.Names
import JarReader.Proofs.Command.Forms
import JarReader.Proofs.Disk.Clean
import JarReader.Proofs.Disk.Below
import JarReader.Proofs.Disk.Placement
import JarReader.Proofs.Command.Sources
import JarReader.Proofs.Command.Filling
import JarReader.Proofs.Command.Contents
import JarReader.Proofs.Command.Glob
import JarReader.Proofs.Command.Cautions
