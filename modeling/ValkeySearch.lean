import ValkeySearch.Indexes.VectorBase
import ValkeySearch.Indexes.Bookkeeping
import ValkeySearch.Indexes.Snapshot
import ValkeySearch.Indexes.Numeric
import ValkeySearch.Indexes.Search
import ValkeySearch.Indexes.Prefilter
import ValkeySearch.Indexes.VectorFlat
import ValkeySearch.Commands.FtSearch
import ValkeySearch.Indexes.FlatIndex
import ValkeySearch.Indexes.StringRecord
import ValkeySearch.Hnswlib.IoStream
import ValkeySearch.Indexes.KeyVectors
import ValkeySearch.Indexes.Sizing
