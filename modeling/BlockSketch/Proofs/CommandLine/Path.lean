import BlockSketch.CommandLine.Run

namespace BlockSketch.CommandLine

end BlockSketch.CommandLine
